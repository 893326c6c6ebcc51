import PulseSequencer.Proofs.Instrument.Sound
import PulseSequencer.Proofs.Instrument.Task
import PulseSequencer.Proofs.Line

/-!
# Connecting is all or nothing

An attempt to connect brings a board to the host's state by one list of operations, and changes the
host's state after the last of them. Wherever it fails, no board is attached and the host's state is
as it was; when it succeeds, the board starts afresh.

* `Host.initialise_eq`: the initialisation of a board as a list of operations.
* `Instrument.Attempt`, `Instrument.attempt`: how an attempt to connect ends, and when.
* `Instrument.Spared`, `Instrument.Fresh`: what a failed attempt leaves, and one that succeeds.
* `Instrument.connect_all_or_nothing`: every attempt leaves one or the other.
-/

namespace PulseSequencer

namespace Action

variable {σ α : Type}

/-- Operations in two parts are issued one part after the other. -/
lemma issueAll_append (ps qs : List Primitive) :
    (issueAll (ps ++ qs) : Action σ Unit) = issueAll ps >>= fun _ => issueAll qs := by
  induction ps with
  | nil => rw [List.nil_append, issueAll_nil_bind]
  | cons p ps ih => rw [List.cons_append, issueAll, ih, issueAll_cons_bind]

/-- Operations do not change the host's state. -/
lemma issueAll_state_bind (ps : List Primitive) (f : σ → Action σ α) (h : Held σ) :
    (issueAll ps >>= fun _ => Action.state >>= f) h = (issueAll ps >>= fun _ => f h.state) h := by
  have keeps : Keeps (OnState (· = h.state)) _ _ := keeps_issueAll ps
  have hstate := (keeps.held (h := h) rfl).1
  cases hps : issueAll ps h with
  | error e h' => rw [bind_of_error hps, bind_of_error hps]
  | ok u h' =>
    rw [after_of_ok hps] at hstate
    rw [bind_of_ok hps, bind_of_ok hps, state_bind, hstate]

end Action

namespace Host

variable {h : Held Host}

/-- The counting setup has no part in a single operation. -/
lemma onCounting_issue (p : Primitive) : onCounting (Action.issue p) = Action.issue p := by
  funext h
  simp only [onCounting, Action.focus, Action.issue]
  cases h.bus.issue p with
  | mk r bus => cases r <;> rfl

/-- Steps on the counting setup follow one another. -/
lemma onCounting_bind {α β : Type} (x : Action Counting α) (f : α → Action Counting β) :
    onCounting (x >>= f) = onCounting x >>= fun a => onCounting (f a) := by
  refine Action.focus_bind ?_ ?_ x f
  · exact fun _ _ => rfl
  · exact fun _ _ _ => rfl

/-- The counting setup has no part in operations that are given. -/
lemma onCounting_issueAll (ps : List Primitive) :
    onCounting (Action.issueAll ps) = Action.issueAll ps := by
  induction ps with
  | nil => rfl
  | cons p ps ih =>
    rw [Action.issueAll, onCounting_bind, ih, onCounting_issue, Action.issueAll]

/-- The counting setup is read off the host's state. -/
lemma onCounting_state_bind (f : Counting → Action Counting Unit) (h : Held Host) :
    onCounting (Action.state >>= f) h = onCounting (f h.state.counting) h := rfl

/-- To tell the board of the counting setup is a list of operations. -/
lemma onCounting_apply (h : Held Host) :
    onCounting Counting.apply h = Action.issueAll h.state.counting.applying h := by
  have happly : Counting.apply = Action.state >>= fun c => Action.issueAll c.applying := by
    simp only [Counting.applying, Action.issueAll]
    refine congrArg _ (funext fun c => congrArg _ (funext fun _ => congrArg _ (funext fun _ => ?_)))
    exact (bind_pure_unit (x := (Wire.commit : Action Counting PUnit))).symm
  rw [happly, onCounting_state_bind, onCounting_issueAll]

/-- The initialisation of a board is a list of operations; if they succeed, the sequencer is taken
to have no program. -/
lemma initialise_eq {r : LineRegister} (hr : h.state.lines.register = .ok r) :
    initialise h = (Action.issueAll (h.state.initialising r) >>= fun _ =>
      Action.change ({ · with controller := .idle })) h := by
  have hreset : onCounting Counting.resetFifo = Wire.trigger Pulse.resetCounts :=
    onCounting_issue _
  have hlines : initialise h = (Action.issueAll [.setWire Endpoint.manual r.manual Word.all,
      .setWire Endpoint.level r.level Word.all, .commit] >>= fun _ =>
        onCounting Counting.apply >>= fun _ => Wire.trigger Pulse.resetCounts >>= fun _ =>
          Wire.trigger Pulse.resetDds >>= fun _ =>
            Action.change ({ · with controller := .idle })) h := by
    simp only [Action.issueAll_cons_bind, Action.issueAll_nil_bind, ← hreset]
    show (Action.ofExcept h.state.lines.register >>= _) h = _
    rw [hr]
    rfl
  have happly : onCounting Counting.apply =
      Action.state >>= fun h => Action.issueAll h.counting.applying := funext onCounting_apply
  rw [hlines, happly]
  simp only [bind_assoc]
  rw [Action.issueAll_state_bind, initialising, Action.issueAll_append, Action.issueAll_append]
  simp only [bind_assoc, Action.issueAll_cons_bind, Action.issueAll_nil_bind]
  rfl

/-- Lines that do not fit the wires refuse the initialisation. -/
lemma initialise_of_error {e : Error} (he : h.state.lines.register = .error e) :
    initialise h = .error e h := by
  show (Action.ofExcept h.state.lines.register >>= _) h = _
  rw [he]
  rfl

end Host

/-- The initialisation empties the pipe of count records. -/
lemma Board.counts_initialised (b : Board) (h : Host) (r : LineRegister) :
    (b.replay (h.initialising r)).pipes Endpoint.counts = [] := by
  rw [Host.initialising, replay_append]
  generalize b.replay _ = b'
  show setAt b'.pipes Endpoint.counts [] Endpoint.counts = []
  rw [setAt_same]

namespace Instrument

variable {i i' : Instrument}

/-- The instrument once its connector has looked for the board, with another bus. -/
def looked (i : Instrument) (bus : Bus) : Instrument :=
  { i with
    link := { i.link with
      connector := { i.link.connector with attempts := i.link.connector.attempts + 1 }
      held := { i.link.held with bus } } }

/-- The instrument with a board attached whose sequencer is taken to have no program. -/
def started (i : Instrument) : Instrument :=
  { i with
    link := { i.link with
      attached := true
      held := { i.link.held with state := { i.host with controller := .idle } } } }

/-- How an attempt to connect ends. Only a board in its slot is found; on the way to it one of the
operations of the initialisation may fail. -/
inductive Attempt (i : Instrument) : Prop where
  | attached (attached : i.link.attached = true) (ok : connect i = .ok () i)
  | absent (detached : i.link.attached = false) (absent : i.board.present = false)
      (error : connect i = .error (.transport (.deviceNotFound i.link.connector.deviceId))
        (i.looked i.link.bus))
  | unfit {e : Error} (detached : i.link.attached = false) (present : i.board.present = true)
      (unfit : i.host.lines.register = .error e)
      (error : connect i = .error e (i.looked i.link.bus))
  | failed {r : LineRegister} {k : Nat} {f : Failure} (detached : i.link.attached = false)
      (present : i.board.present = true) (register : i.host.lines.register = .ok r)
      (fault : i.link.bus.fault = some ⟨k, f⟩) (due : k < (i.host.initialising r).length)
      (error : connect i = .error f.error
        (i.looked ⟨i.board.replay ((i.host.initialising r).take k), none⟩))
  | done {r : LineRegister} {fault : Option Fault} (detached : i.link.attached = false)
      (present : i.board.present = true) (register : i.host.lines.register = .ok r)
      (passes : ∀ k f, i.link.bus.fault = some ⟨k, f⟩ → (i.host.initialising r).length ≤ k)
      (ok : connect i =
        .ok () (i.looked ⟨i.board.replay (i.host.initialising r), fault⟩).started)

/-- A board that is not in its slot is not found. -/
lemma connect_of_absent (hdetached : i.link.attached = false) (habsent : i.board.present = false) :
    connect i = .error (.transport (.deviceNotFound i.link.connector.deviceId))
      (i.looked i.link.bus) := by
  obtain ⟨⟨attached, connector, ⟨state, bus⟩⟩, registry, config, listeners⟩ := i
  cases hdetached
  have habsent : ¬bus.board.present = true := Bool.eq_false_iff.mp habsent
  simp only [connect, onLink, Link.connect, Bool.false_eq_true, if_false, if_neg habsent]
  rfl

/-- On a board in its slot an attempt to connect is the initialisation. -/
lemma connect_of_present (hdetached : i.link.attached = false) (hpresent : i.board.present = true) :
    connect i = match Host.initialise i.link.held with
      | .ok _ held =>
        .ok () { i with link := { (i.looked i.link.bus).link with held, attached := true } }
      | .error e held => .error e { i with link := { (i.looked i.link.bus).link with held } } := by
  obtain ⟨⟨attached, connector, ⟨state, bus⟩⟩, registry, config, listeners⟩ := i
  cases hdetached
  have hpresent : bus.board.present = true := hpresent
  simp only [connect, onLink, Link.connect, Bool.false_eq_true, if_false, if_pos hpresent]
  cases Host.initialise ⟨state, bus⟩ <;> rfl

/-- Every attempt to connect ends in one of these ways. -/
lemma attempt (i : Instrument) : i.Attempt := by
  cases hattached : i.link.attached with
  | true =>
    refine .attached hattached ?_
    simp only [connect, onLink, Link.connect, if_pos hattached]
  | false =>
    cases hpresent : i.board.present with
    | false => exact .absent hattached hpresent (connect_of_absent hattached hpresent)
    | true =>
      have hconnect := connect_of_present hattached hpresent
      cases hregister : i.host.lines.register with
      | error e =>
        rw [Host.initialise_of_error hregister] at hconnect
        exact .unfit hattached hpresent hregister hconnect
      | ok r =>
        rw [Host.initialise_eq hregister] at hconnect
        -- a fault is due in one of the operations, or all of them pass it
        by_cases hdue : ∃ k f, i.link.bus.fault = some ⟨k, f⟩ ∧ k < (i.host.initialising r).length
        · obtain ⟨k, f, hfault, hk⟩ := hdue
          have hall : Action.issueAll (i.link.held.state.initialising r) i.link.held = _ :=
            Action.issueAll_of_fault hfault hpresent hk
          rw [bind_of_error hall] at hconnect
          exact .failed hattached hpresent hregister hfault hk hconnect
        · have hpasses : ∀ k f, i.link.bus.fault = some ⟨k, f⟩ →
              (i.host.initialising r).length ≤ k :=
            fun k f hfault => Nat.le_of_not_lt fun hk => hdue ⟨k, f, hfault, hk⟩
          obtain ⟨fault, hall⟩ :=
            Action.issueAll_of_pass (i.link.held.state.initialising r) hpresent hpasses
          rw [bind_of_ok hall] at hconnect
          have hok : connect i =
              .ok () (i.looked ⟨i.board.replay (i.host.initialising r), fault⟩).started := by
            rw [hconnect]
            rfl
          exact .done hattached hpresent hregister hpasses hok

/-- What a failed attempt to connect leaves: no board is attached, and the controller with what a
finished run left, the counting setup and the lines are as they were. -/
structure Spared (i i' : Instrument) : Prop where
  detached : i'.link.attached = false
  host : i'.host = i.host

/-- What an attempt to connect leaves that attaches a board: the controller has neither a program
nor a finished run, no count records wait, the synthesizers were reset, and the counting setup and
the lines are as they were. -/
structure Fresh (i i' : Instrument) : Prop where
  attached : i'.link.attached = true
  controller : i'.host.controller = ⟨.idle, none⟩
  counting : i'.host.counting = i.host.counting
  lines : i'.host.lines = i.host.lines
  records : i'.board.pipes Endpoint.counts = []
  reset : .trigger Endpoint.trigger Pulse.resetDds ∈ i.issued (.command .connect)

/-- An attempt to connect does all of its work or changes nothing that matters later. It succeeds
exactly if the board is in its slot, its lines fit the wires and no fault is due before the end of
the initialisation; the lines always fit in a state that an instrument can be in. -/
structure AllOrNothing (i : Instrument) : Prop where
  attached : i.link.attached = true → connect i = .ok () i
  detached : i.link.attached = false →
    (∃ e i', connect i = .error e i' ∧ Spared i i') ∨ ∃ i', connect i = .ok () i' ∧ Fresh i i'
  connects_iff : i.link.attached = false → ((∃ i', connect i = .ok () i') ↔
    i.board.present = true ∧ ∃ r, i.host.lines.register = .ok r ∧
      ∀ k f, i.link.bus.fault = some ⟨k, f⟩ → (i.host.initialising r).length ≤ k)
  fits : Reachable i → ∃ r, i.host.lines.register = .ok r

/-- An attempt whose initialisation succeeds leaves a board that starts afresh. -/
lemma fresh_of_done {r : LineRegister} {fault : Option Fault}
    (ok : connect i = .ok () (i.looked ⟨i.board.replay (i.host.initialising r), fault⟩).started) :
    Fresh i (i.looked ⟨i.board.replay (i.host.initialising r), fault⟩).started := by
  refine ⟨rfl, rfl, rfl, rfl, i.board.counts_initialised i.host r, ?_⟩
  have hboard : (Event.apply i (.command .connect)).board =
      i.board.replay (i.host.initialising r) := by
    show (after connect i).board = _
    rw [after_of_ok ok]
    rfl
  rw [issued_of_replay hboard]
  simp [Host.initialising]

/-- Every attempt to connect does all of its work or changes nothing that matters later. -/
theorem connect_all_or_nothing (i : Instrument) : i.AllOrNothing := by
  constructor
  case attached =>
    intro hattached
    cases i.attempt with
    | attached _ ok => exact ok
    | absent detached | unfit detached | failed detached | done detached =>
      cases hattached.symm.trans detached
  case detached =>
    intro hdetached
    cases i.attempt with
    | attached attached => cases hdetached.symm.trans attached
    | absent detached _ error => exact .inl ⟨_, _, error, detached, rfl⟩
    | unfit detached _ _ error => exact .inl ⟨_, _, error, detached, rfl⟩
    | failed detached _ _ _ _ error => exact .inl ⟨_, _, error, detached, rfl⟩
    | done _ _ _ _ ok => exact .inr ⟨_, ok, fresh_of_done ok⟩
  case connects_iff =>
    intro hdetached
    cases i.attempt with
    | attached attached => cases hdetached.symm.trans attached
    | absent _ absent error =>
      refine iff_of_false ?_ fun h => Bool.eq_false_iff.mp absent h.1
      rintro ⟨_, hok⟩
      cases error.symm.trans hok
    | unfit _ _ unfit error =>
      refine iff_of_false ?_ ?_
      · rintro ⟨_, hok⟩
        cases error.symm.trans hok
      · rintro ⟨-, r, hr, -⟩
        cases unfit.symm.trans hr
    | failed _ _ register fault due error =>
      refine iff_of_false ?_ ?_
      · rintro ⟨_, hok⟩
        cases error.symm.trans hok
      · rintro ⟨-, r, hr, hpasses⟩
        cases register.symm.trans hr
        exact absurd (hpasses _ _ fault) (Nat.not_le_of_lt due)
    | done _ present register passes ok =>
      exact iff_of_true ⟨_, ok⟩ ⟨present, _, register, passes⟩
  case fits => exact fun hi => LineTable.exists_register hi.sound.host.lines

end Instrument

end PulseSequencer
