import PulseSequencer.Proofs.Instrument.Mirror
import PulseSequencer.Proofs.Instrument.Switch
import PulseSequencer.Proofs.Session.Delivery

/-!
# Who is told of a switch

A switch that succeeded is announced to every session but the one that asked for it; one that failed
is not announced. Whatever else is done with the instrument, and whatever happens to its board, a
session reads one notice for each switch that it has to be told of, in order, and those that it has
not read yet wait for it.

* `Instrument.traffic`: what an event of an instrument means for its sessions.
* `Instrument.leaves_listeners_onLink`: what is done on the link leaves the listeners alone.
* `Instrument.moves_traffic`: an event is a step of the listeners.
* `Instrument.notices_delivered`: what the sessions of an instrument read, how many there are, and
  under which identities.
-/

namespace PulseSequencer.Instrument

/-- A channel is held at a level, as the state of its line says. -/
def heldNotice (i : Instrument) (channel : String) : Except Error Notice := do
  let line ← i.lineState channel
  return ⟨channel, if line.level then .manualOn else .manualOff⟩

/-- What an event means for the sessions: a session is opened or closed, a switch that succeeded is
announced, or notices are read. -/
def traffic (i : Instrument) : Event → Traffic
  | .command .openSession =>
    match openSession i with
    | .ok s _ => .opened s.id
    | .error _ _ => .nothing
  | .command (.closeSession id) => .closed id
  | .command (.switchManual origin channel level) =>
    match switchManual origin channel level i with
    | .ok _ i' =>
      match i'.heldNotice channel with
      | .ok notice => .announced origin notice
      | .error _ => .nothing
    | .error _ _ => .nothing
  | .command (.switchAuto origin channel inverted) =>
    match switchAuto origin channel inverted i with
    | .ok _ _ => .announced origin ⟨channel, .auto⟩
    | .error _ _ => .nothing
  | .command (.takeNotice id) =>
    match takeNotice id i with
    | .ok notice _ => .read id notice.toList
    | .error _ _ => .nothing
  | .command (.takeNotices id) =>
    match takeNotices id i with
    | .ok notices _ => .read id notices
    | .error _ _ => .nothing
  | _ => .nothing

/-- What the events of a run mean for the sessions, in order. -/
def traffics : Instrument → List Event → List Traffic
  | _, [] => []
  | i, e :: events => i.traffic e :: (e.apply i).traffics events

/-- What a longer run means for the sessions ends with what its last event means. -/
lemma traffics_concat (i : Instrument) (events : List Event) (e : Event) :
    i.traffics (events ++ [e]) = i.traffics events ++ [(i.run events).traffic e] := by
  induction events generalizing i with
  | nil => rfl
  | cons first events ih => exact congrArg _ (ih (first.apply i))

/-! ## Operations that leave the listeners alone -/

variable {α : Type} {i i' : Instrument}

/-- What is done on the link leaves the listeners alone. -/
lemma leaves_listeners_onLink (x : Link.Operation Host α) : Leaves listeners (onLink x) := by
  intro i
  rw [after_onLink]

/-- So do transactions, -/
lemma leaves_listeners_transaction (work : Action Host α) :
    Leaves listeners (transaction work) := leaves_listeners_onLink _

/-- the switch of a line before it is announced, -/
lemma leaves_listeners_switchLine (channel : String) (update : LineState → LineState) :
    Leaves listeners (switchLine channel update) :=
  leaves_switchLine_of_transaction fun _ => leaves_listeners_transaction _

/-- and changes of a collection time. -/
lemma leaves_listeners_setCollectionTime (seconds : Float) (mode : CollectionMode) :
    Leaves listeners (setCollectionTime seconds mode) := by
  refine .get_bind fun _ => leaves_ofExcept_bind fun _ => ?_
  cases mode with
  | normal => exact leaves_listeners_transaction _
  | differential =>
    exact .get_bind fun _ => leaves_ofExcept_bind fun _ => leaves_listeners_onLink _

/-! ## Switches -/

/-- An announced switch is published with the state that the line has afterwards. -/
lemma announce_of_ok {origin : Option SessionId} {channel : String} {update : LineState → LineState}
    {event : LineState → SwitchEvent} (hok : announce origin channel update event i = .ok () i') :
    ∃ line, i'.lineState channel = .ok line ∧
      i'.listeners = i.listeners.publish origin ⟨channel, event line⟩ := by
  obtain ⟨line, j, hswitch, hnotify⟩ := ok_of_bind hok
  have hlisteners := leaves_listeners_switchLine channel update i
  rw [after_of_ok hswitch] at hlisteners
  have hline := lineState_of_switchLine hswitch
  cases hnotify
  exact ⟨line, hline, hlisteners ▸ rfl⟩

/-- A switch that fails is not announced. -/
lemma announce_of_error {origin : Option SessionId} {channel : String}
    {update : LineState → LineState} {event : LineState → SwitchEvent} {e : Error}
    (herror : announce origin channel update event i = .error e i') :
    i'.listeners = i.listeners := by
  rcases error_of_bind herror with hswitch | ⟨line, j, -, hnotify⟩
  · rw [← after_of_error hswitch]
    exact leaves_listeners_switchLine channel update i
  · cases hnotify

/-! ## Events -/

/-- A command that leaves the listeners alone and means nothing for the sessions. -/
lemma moves_of_leaves {c : Command} (hleaves : Leaves listeners c.work)
    (htraffic : i.traffic (.command c) = .nothing) :
    i.listeners.Moves (i.traffic (.command c)) (Event.apply i (.command c)).listeners := by
  rw [htraffic]
  show i.listeners.Moves .nothing (after c.work i).listeners
  rw [hleaves i]
  exact .nothing _

/-- An event of the instrument is a step of the listeners. -/
theorem moves_traffic (i : Instrument) (e : Event) :
    i.listeners.Moves (i.traffic e) (e.apply i).listeners := by
  cases e with
  | bus e => exact .nothing _
  | command c =>
    cases c with
    | openSession => exact .opened _
    | closeSession id => exact .closed _ id
    | takeNotice id => exact .read _ id
    | takeNotices id => exact .readAll _ id
    | switchManual origin channel level =>
      show i.listeners.Moves _ (after (switchManual origin channel level) i).listeners
      cases hr : switchManual origin channel level i with
      | ok u i' =>
        obtain ⟨line, hline, hlisteners⟩ := announce_of_ok hr
        have hnotice : i.traffic (.command (.switchManual origin channel level)) =
            .announced origin ⟨channel, if line.level then .manualOn else .manualOff⟩ := by
          simp only [traffic, hr, heldNotice, hline]
          rfl
        rw [hnotice, after_of_ok hr, hlisteners]
        exact .announced _ _ _
      | error e i' =>
        have hnothing : i.traffic (.command (.switchManual origin channel level)) = .nothing := by
          simp only [traffic, hr]
        rw [hnothing, after_of_error hr, announce_of_error hr]
        exact .nothing _
    | switchAuto origin channel inverted =>
      show i.listeners.Moves _ (after (switchAuto origin channel inverted) i).listeners
      cases hr : switchAuto origin channel inverted i with
      | ok u i' =>
        obtain ⟨line, -, hlisteners⟩ := announce_of_ok hr
        have hnotice : i.traffic (.command (.switchAuto origin channel inverted)) =
            .announced origin ⟨channel, .auto⟩ := by
          simp only [traffic, hr]
        rw [hnotice, after_of_ok hr, hlisteners]
        exact .announced _ _ _
      | error e i' =>
        have hnothing : i.traffic (.command (.switchAuto origin channel inverted)) = .nothing := by
          simp only [traffic, hr]
        rw [hnothing, after_of_error hr, announce_of_error hr]
        exact .nothing _
    -- all other commands leave the listeners as they are
    | connect => exact moves_of_leaves (leaves_listeners_onLink _) rfl
    | disconnect => exact moves_of_leaves (fun _ => rfl) rfl
    | programSequence s =>
      exact moves_of_leaves
        (leaves_ofExcept_bind fun _ => leaves_listeners_transaction _) rfl
    | startCounted count =>
      exact moves_of_leaves
        (leaves_ofExcept_bind fun _ => leaves_listeners_transaction _) rfl
    | setCollectionTime seconds mode =>
      exact moves_of_leaves (leaves_listeners_setCollectionTime seconds mode) rfl
    | repetitions => exact moves_of_leaves (leaves_listeners_transaction _).discard rfl
    | pollDone => exact moves_of_leaves (leaves_listeners_transaction _).discard rfl
    | counts readTime => exact moves_of_leaves (leaves_listeners_transaction _).discard rfl
    | timetags => exact moves_of_leaves (leaves_listeners_transaction _).discard rfl
    | _ => exact moves_of_leaves (leaves_listeners_transaction _) rfl

/-- What a run means for the sessions leads to the listeners that it leaves. -/
lemma leads_traffics (i : Instrument) (events : List Event) :
    i.listeners.Leads (i.traffics events) (i.run events).listeners := by
  induction events using List.reverseRecOn with
  | nil => exact .nil
  | append_singleton events e ih =>
    rw [traffics_concat, run_append]
    exact .concat ih (moves_traffic (i.run events) e)

/-- In every run of an instrument, whatever is asked of it and whatever happens to its board: what a
session has read since it was opened, and then what waits for it, is what it was to be told of; no
two sessions are given the same identity; and as many are open as were opened and not closed. -/
theorem notices_delivered {config : Configuration} {connectorId : String} {bus : Bus}
    (h : opened config connectorId bus = .ok i) (events : List Event) :
    (∀ before id since, i.traffics events = before ++ .opened id :: since → .closed id ∉ since →
        since.flatMap (·.heard id) ++ (i.run events).listeners.waiting id =
          since.flatMap (·.told id)) ∧
      ((i.traffics events).filterMap Traffic.opening).Nodup ∧
      (i.run events).sessions = {id | Traffic.Live (i.traffics events) id}.ncard := by
  have hempty : i.listeners = .empty := by
    obtain ⟨registry, -, rfl⟩ := eq_connect_of_opened h
    exact leaves_listeners_onLink _ _
  have hdelivers := (hempty ▸ leads_traffics i events).delivers
  exact ⟨hdelivers.delivered, hdelivers.unique, hdelivers.length_registered⟩

/-- Two sessions are opened; the first one switches a channel, then a switch fails, and then the
channel is handed back. -/
def twoSessions : List Event :=
  [.command .openSession, .command .openSession,
    .command (.switchManual (some 0) "lamp" (some true)),
    .bus (.expect (some ⟨1, .reported (.failed "commit" "link")⟩)),
    .command (.switchManual none "lamp" (some false)), .command (.takeNotice 1),
    .command (.switchAuto none "lamp" none)]

/-- What that means for the sessions after the second one was opened. -/
def sinceSecond : List Traffic :=
  [.announced (some 0) ⟨"lamp", .manualOn⟩, .nothing, .nothing, .read 1 [⟨"lamp", .manualOn⟩],
    .announced none ⟨"lamp", .auto⟩]

set_option maxRecDepth 20000 in
/-- The second session has read the first notice, and the other one waits for it. -/
theorem second_session_told :
    ∃ i, opened lampConfiguration "board" (.new .new) = .ok i ∧
      i.traffics twoSessions = [.opened 0] ++ .opened 1 :: sinceSecond ∧
      sinceSecond.flatMap (·.heard 1) ++ (i.run twoSessions).listeners.waiting 1 =
        [⟨"lamp", .manualOn⟩, ⟨"lamp", .auto⟩] ∧
      (i.run twoSessions).sessions = {id | Traffic.Live (i.traffics twoSessions) id}.ncard := by
  have htraffics : (after connect (unopened lampConfiguration ⟨[.auto "lamp" 3], []⟩ "board"
      (.new .new))).traffics twoSessions = [.opened 0] ++ .opened 1 :: sinceSecond := by
    decide +kernel
  obtain ⟨hdelivered, -, hsessions⟩ := notices_delivered opened_lamp twoSessions
  refine ⟨_, opened_lamp, htraffics, ?_, hsessions⟩
  exact hdelivered [.opened 0] 1 sinceSecond htraffics (by decide)

end PulseSequencer.Instrument
