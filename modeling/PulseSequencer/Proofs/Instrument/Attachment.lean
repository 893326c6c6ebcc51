import PulseSequencer.Proofs.Instrument.Effect
import PulseSequencer.Proofs.Instrument.FailedStart
import PulseSequencer.Proofs.Sequencer.Agreement

/-!
# What an attached board finds

To attach a board is to take its sequencer to be idle; what the run bit of the board says is not
looked at, and nothing clears it. So the sequencer of an attached board is clean exactly if its run
bit was clear before, that is, if the controller had nothing to stop when the board was detached.
While this is so, every start that is accepted raises the run bit.

* `Instrument.Attaches`, `Instrument.Along`: events that attach a board, and the events of a run.
* `Instrument.Clean`: an attached board has a clean sequencer, and an accepted start raises the run
  bit.
* `Instrument.clean_along_iff`: the runs without faults that are clean throughout;
  `Instrument.attached_while_running` is one that is not.
-/

namespace PulseSequencer

/-! ## Rises -/

/-- If rising edges are counted, the run bit goes from 0 to 1 at one of them. -/
lemma Board.raises_of_rises {b : Board} {ps : List Primitive} (h : b.rises ps ≠ 0) :
    b.Raises ps := by
  induction ps generalizing b with
  | nil => exact absurd rfl h
  | cons p ps ih =>
    by_cases hfirst : b.running = false ∧ (b.carry p).running = true
    · exact ⟨[], p, ⟨ps, rfl⟩, hfirst⟩
    · rw [rises, if_neg hfirst, Nat.zero_add] at h
      obtain ⟨qs, q, ⟨rest, hrest⟩, hlow, hhigh⟩ := ih h
      exact ⟨p :: qs, q, ⟨rest, by simpa using hrest⟩, hlow, hhigh⟩

/-- An idle controller agrees with wires on which the run bit is clear. -/
lemma Controller.agrees_idle_iff {wires : Address → Word} :
    Controller.idle.Agrees wires ↔ Control.has (wires Endpoint.control) Control.run = false := by
  rw [← Control.has_run_field]
  rfl

namespace Instrument

/-! ## Events of a run -/

/-- The event attaches the board. -/
def Attaches (i : Instrument) (e : Event) : Prop :=
  i.link.attached = false ∧ (e.apply i).link.attached = true

/-- The event lets no fault lie in wait. -/
def Event.FaultFree : Event → Prop
  | .bus (.expect (some _)) => False
  | _ => True

/-- `P` holds of each event of a run and the state in which it finds the instrument. -/
def Along (P : Instrument → Event → Prop) : Instrument → List Event → Prop
  | _, [] => True
  | i, e :: events => P i e ∧ Along P (e.apply i) events

/-- If the event attaches the board, the controller is idle and the run bit is clear; if it is a
start that is accepted, the run bit rises. -/
structure Clean (i : Instrument) (e : Event) : Prop where
  attach : Attaches i e → (e.apply i).host.controller = .idle ∧ (e.apply i).board.running = false
  start : ∀ c i', e = .command c → c.starts = true → c.work i = .ok () i' →
    i.board.Raises (i.issued e)

/-- Two properties of the events of a run are the same if an invariant says so that one of them
keeps. -/
lemma along_congr {I : Instrument → Prop} {P Q : Instrument → Event → Prop}
    (hiff : ∀ i e, I i → e.FaultFree → (P i e ↔ Q i e))
    (hstep : ∀ i e, I i → e.FaultFree → Q i e → I (e.apply i)) {i : Instrument} (hi : I i)
    {events : List Event} (hevents : ∀ e ∈ events, e.FaultFree) :
    Along P i events ↔ Along Q i events := by
  induction events generalizing i with
  | nil => exact Iff.rfl
  | cons e events ih =>
    have he := hevents e List.mem_cons_self
    refine and_congr_right_iff.mpr ?_ |>.trans (and_congr_left_iff.mpr fun _ => hiff i e hi he)
    intro hP
    exact ih (hstep i e hi he ((hiff i e hi he).mp hP)) fun e' he' =>
      hevents e' (List.mem_cons_of_mem e he')

/-! ## One event -/

/-- No fault lies in wait, and nothing waits for a commit. -/
structure Undisturbed (l : Link Host) : Prop where
  fault : l.bus.fault = none
  settled : l.bus.board.Settled

/-- From `l` to `l'` a board is attached, its run bit left as it is. -/
structure Attached (l l' : Link Host) : Prop where
  detached : l.attached = false
  attached : l'.attached = true
  controller : l'.state.controller = .idle
  running : l'.bus.board.running = l.bus.board.running

/-- From `l` to `l'` no board is attached, and controller and wires stay in agreement. -/
structure Continues (l l' : Link Host) : Prop where
  attached : l'.attached = true → l.attached = true
  agrees : l.state.controller.Agrees l.bus.board.wires →
    l'.state.controller.Agrees l'.bus.board.wires

/-- Without faults the board is attached with the run bit that it has, or controller and wires stay
in agreement. -/
lemma Effect.attached_or_continues {A : UInt8 → Prop} {l l' : Link Host} (h : Effect A l l')
    (hl : Undisturbed l) :
    Undisturbed l' ∧ (Attached l l' ∨ Continues l l') := by
  cases h with
  | nothing hheld hattached =>
    have hstate : l'.state = l.state := congrArg Held.state hheld
    have hbus : l'.bus = l.bus := congrArg Held.bus hheld
    refine ⟨⟨hbus ▸ hl.fault, hbus ▸ hl.settled⟩, .inr ⟨hattached, ?_⟩⟩
    rw [hstate, hbus]
    exact id
  | stored _ hstate hbus hattached =>
    refine ⟨⟨hbus ▸ hl.fault, hbus ▸ hl.settled⟩, .inr ⟨hattached ▸ id, ?_⟩⟩
    rw [hstate, hbus]
    exact id
  | @attached r hdetached hattached _ hstate hcarries =>
    have hsettled : (l.bus.board.replay (l.state.initialising r)).Settled :=
      hl.settled.replay (l.state.settles_initialising r)
    refine ⟨⟨hcarries.fault_none hl.fault, hcarries.board ▸ hsettled⟩, .inl ?_⟩
    refine ⟨hdetached, hattached, by rw [hstate], ?_⟩
    -- the run bit is in a field that the initialisation does not write
    have hkept : (Endpoint.control, Control.sequencer) ∈ Controller.runFields :=
      List.mem_cons_self
    have hfield := (l.state.writeOnly_initialising r).field_eq (by decide) hkept l.bus.board.wires
    rw [Board.running, Board.running, hcarries.board, hl.settled.wires_replay hsettled,
      ← Control.has_run_field, hfield, Control.has_run_field]
  | @did task ps _ hattached hdoes hcarries =>
    have hsettled : (l.bus.board.replay ps).Settled := hl.settled.replay hdoes.settles
    refine ⟨⟨hcarries.fault_none hl.fault, hcarries.board ▸ hsettled⟩, .inr ?_⟩
    refine ⟨fun _ => hattached, ?_⟩
    rw [hcarries.board, hl.settled.wires_replay hsettled]
    exact hdoes.agrees
  | failed hfails hleft hattached =>
    obtain ⟨-, rfl, hbus⟩ := hfails.absent hl.fault
    refine ⟨⟨hbus ▸ hl.fault, hbus ▸ hl.settled⟩, .inr ⟨fun h => (hattached h).1, ?_⟩⟩
    rw [hleft.controller rfl, hbus]
    exact id

/-- Without a fault in wait, an event attaches a board or keeps controller and wires in
agreement. -/
lemma event_attached_or_continues {i : Instrument} {e : Event} (he : e.FaultFree)
    (hi : Undisturbed i.link) :
    Undisturbed (e.apply i).link ∧
      (Attached i.link (e.apply i).link ∨ Continues i.link (e.apply i).link) := by
  cases e with
  | command c => exact (c.affects i).link.attached_or_continues hi
  | bus b =>
    have hfault : ((Event.bus b).apply i).link.bus.fault = none := by
      cases b with
      | expect fault =>
        cases fault with
        | none => rfl
        | some fault => exact he.elim
      | _ => exact hi.fault
    refine ⟨⟨hfault, ?_⟩, .inr ?_⟩
    · cases b <;> exact hi.settled
    · cases b <;> exact ⟨id, id⟩

/-! ## Runs -/

/-- A start that is accepted raises the run bit, if controller and wires agreed before. -/
lemma raises_of_starts {i i' : Instrument} {c : Command} (hi : Undisturbed i.link)
    (hagrees : i.link.attached = true → i.host.controller.Agrees i.board.wires)
    (hc : c.starts = true) (hok : c.work i = .ok () i') :
    i.board.Raises (i.issued (.command c)) := by
  obtain ⟨command, hstarts, hattached, htask⟩ := c.task_of_starts hc hok
  obtain ⟨ps, hdoes, hcarries⟩ := (Host.Task.follows _ _).of_ok htask
  have hboard : ((Event.command c).apply i).board = i.board.replay ps := by
    rw [Event.apply, after_of_ok hok]
    exact hcarries.board
  rw [issued_of_replay hboard]
  have honce : i.board.StartsOnce ps :=
    hdoes.of_sequencer.startsOnce hstarts hi.settled (hagrees hattached)
  exact Board.raises_of_rises (by rw [honce.once]; exact Nat.one_ne_zero)

/-- An event is clean exactly if it does not attach a board whose run bit is set. -/
lemma clean_iff_running {i : Instrument} {e : Event} (he : e.FaultFree) (hi : Undisturbed i.link)
    (hagrees : i.link.attached = true → i.host.controller.Agrees i.board.wires) :
    Clean i e ↔ (Attaches i e → i.board.running = false) := by
  obtain ⟨-, hcases⟩ := event_attached_or_continues he hi
  constructor
  · intro hclean hattaches
    rcases hcases with hattached | hcontinues
    · exact hattached.running.symm.trans (hclean.attach hattaches).2
    · exact absurd (hattaches.1.symm.trans (hcontinues.attached hattaches.2)) Bool.false_ne_true
  · intro hrunning
    refine ⟨fun hattaches => ?_, fun c i' hc hstarts hok => ?_⟩
    · rcases hcases with hattached | hcontinues
      · exact ⟨hattached.controller, hattached.running.trans (hrunning hattaches)⟩
      · exact absurd (hattaches.1.symm.trans (hcontinues.attached hattaches.2)) Bool.false_ne_true
    · subst hc
      exact raises_of_starts hi hagrees hstarts hok

/-- What an event leaves if it does not attach a board with the run bit set: if controller and wires
agreed before, they do so after, and an attached board is in agreement in any case. -/
lemma agrees_of_event {i : Instrument} {e : Event} (he : e.FaultFree) (hi : Undisturbed i.link)
    (hrunning : Attaches i e → i.board.running = false) :
    (i.host.controller.Agrees i.board.wires →
        (e.apply i).host.controller.Agrees (e.apply i).board.wires) ∧
      ((i.link.attached = true → i.host.controller.Agrees i.board.wires) →
        (e.apply i).link.attached = true →
          (e.apply i).host.controller.Agrees (e.apply i).board.wires) := by
  obtain ⟨-, hattached | hcontinues⟩ := event_attached_or_continues he hi
  -- an idle controller agrees with whatever wires have the run bit clear
  · have hagrees : (e.apply i).host.controller.Agrees (e.apply i).board.wires := by
      have hcontroller : (e.apply i).host.controller = .idle := hattached.controller
      rw [hcontroller, Controller.agrees_idle_iff]
      exact hattached.running.trans (hrunning ⟨hattached.detached, hattached.attached⟩)
    exact ⟨fun _ => hagrees, fun _ _ => hagrees⟩
  · exact ⟨hcontinues.agrees, fun hagrees h => hcontinues.agrees (hagrees (hcontinues.attached h))⟩

/-- A run without faults, of an instrument whose board has nothing that waits, is clean throughout
exactly if no attachment finds the run bit set. If the run bit is clear in the beginning, this is so
exactly if no attachment finds a controller with something to stop. -/
theorem clean_along_iff (config : Configuration) (registry : Registry) (id : String) {bus : Bus}
    (hfault : bus.fault = none) (hsettled : bus.board.Settled) {events : List Event}
    (hevents : ∀ e ∈ events, e.FaultFree) :
    (Along Clean (unopened config registry id bus) events ↔
      Along (fun i e => Attaches i e → i.board.running = false)
        (unopened config registry id bus) events) ∧
    (bus.board.running = false →
      (Along Clean (unopened config registry id bus) events ↔
        Along (fun i e => Attaches i e → ∀ bits, i.host.controller.stopBits ≠ .ok bits)
          (unopened config registry id bus) events)) := by
  constructor
  · refine along_congr (I := fun i => Undisturbed i.link ∧
      (i.link.attached = true → i.host.controller.Agrees i.board.wires)) ?_ ?_ ?_ hevents
    · exact fun i e hi he => clean_iff_running he hi.1 hi.2
    · exact fun i e hi he hQ => ⟨(event_attached_or_continues he hi.1).1,
        (agrees_of_event he hi.1 hQ).2 hi.2⟩
    · exact ⟨⟨hfault, hsettled⟩, nofun⟩
  · intro hlow
    -- as long as no attachment finds the run bit set, controller and wires agree at all times
    have hiff (i : Instrument) (e : Event)
        (hi : Undisturbed i.link ∧ i.host.controller.Agrees i.board.wires) :
        (Attaches i e → i.board.running = false) ↔
          (Attaches i e → ∀ bits, i.host.controller.stopBits ≠ .ok bits) := by
      have hstop := hi.2.stopBits_iff
      refine imp_congr_right fun _ => ?_
      rw [← not_exists, hstop]
      exact Bool.not_eq_true _ |>.symm.to_iff
    refine along_congr (I := fun i => Undisturbed i.link ∧
      i.host.controller.Agrees i.board.wires) ?_ ?_ ?_ hevents
    · exact fun i e hi he => (clean_iff_running he hi.1 fun _ => hi.2).trans (hiff i e hi)
    · exact fun i e hi he hQ => ⟨(event_attached_or_continues he hi.1).1,
        (agrees_of_event he hi.1 ((hiff i e hi).mpr hQ)).1 hi.2⟩
    · exact ⟨⟨hfault, hsettled⟩, Controller.agrees_idle_iff.mpr hlow⟩

/-! ## Two runs -/

/-- A run is stopped, then the board is detached and attached again. -/
def stoppedBefore : List Event :=
  [.command .connect, .command (.program ⟨[0, 0x10, 10, 0, 0, 0, 0], 10⟩), .command .startSingle,
    .command .stop, .command .disconnect, .command .connect]

/-- A board is detached while its sequencer runs, and attached again. -/
def detachedRunning : List Event :=
  [.command .connect, .command (.program ⟨[0, 0x10, 10, 0, 0, 0, 0], 10⟩), .command .startSingle,
    .command .disconnect, .command .connect]

/-- A board whose run was stopped is clean when it is attached again. -/
theorem attached_after_stop :
    (Bus.new .new).fault = none ∧ (Bus.new .new).board.Settled ∧
      (∀ e ∈ stoppedBefore, e.FaultFree) ∧
      Along Clean (unopened bareConfiguration ⟨[], []⟩ "board" (.new .new)) stoppedBefore := by
  have hsettled : (Bus.new .new).board.Settled := fun _ => rfl
  have hevents : ∀ e ∈ stoppedBefore, e.FaultFree := by
    simp [stoppedBefore, Event.FaultFree]
  refine ⟨rfl, hsettled, hevents, ?_⟩
  refine (clean_along_iff bareConfiguration ⟨[], []⟩ "board" rfl hsettled hevents).1.mpr ?_
  exact ⟨fun _ => rfl, fun _ => by decide +kernel, fun _ => by decide +kernel,
    fun h => absurd h.1 (by decide +kernel), fun _ => by decide +kernel,
    fun _ => by decide +kernel, trivial⟩

set_option maxRecDepth 20000 in
/-- A board that was detached while its sequencer ran still has the run bit set when it is attached
again. -/
theorem attached_while_running :
    ∃ config registry id, opened config id (.new .new) =
        .ok ((unopened config registry id (.new .new)).run [.command .connect]) ∧
      (∀ e ∈ detachedRunning, e.FaultFree) ∧
      ¬Along Clean (unopened config registry id (.new .new)) detachedRunning := by
  refine ⟨bareConfiguration, ⟨[], []⟩, "board", opened_unconnected, ?_, ?_⟩
  · simp [detachedRunning, Event.FaultFree]
  · rintro ⟨-, -, -, -, hclean, -⟩
    have hlow := (hclean.attach ⟨by decide +kernel, by decide +kernel⟩).2
    exact absurd hlow (by decide +kernel)

end Instrument

end PulseSequencer
