import PulseSequencer.Proofs.Instrument.Intake

/-!
# Changes of the counting setup

The host keeps a new counting mode or collection time before the first operation tells the board of
it. If one of the operations fails, the host has the new setup all the same, and converts counts
with it, although the change was refused. Nothing has changed only if the new setup is the old one,
or if the collection time is out of range.

* `Instrument.Command.reconfigures`, `Instrument.Command.leaves_setup`: the commands that change
  the counting setup, and that no others do.
* `Instrument.Command.asks`: the setup that a command asks for on the board.
* `Counting.brings_setMode`, `Counting.brings_setNormalTime`: what is kept, however the work ends.
* `Instrument.SetupKept`: the setup is as it was, and counts are converted as before.
* `Instrument.failed_reconfiguration_kept_iff`: the failed changes after which it is;
  `Instrument.setup_after_failed_change` is one after which it is not.
-/

namespace PulseSequencer

/-! ## What leaves the counting setup alone -/

namespace Host

/-- The counting setup, as a part of what a transaction holds. -/
def setup (h : Held Host) : Counting := h.state.counting

variable {α : Type}

/-- Work on the sequencer leaves it alone, -/
lemma leaves_onController (x : Action Controller α) : Leaves setup (onController x) := by
  intro h
  rw [onController, Action.after_focus]
  rfl

/-- and work on the counting setup that does not change it. -/
lemma leaves_onCounting {x : Action Counting α} (hx : Leaves Held.state x) :
    Leaves setup (onCounting x) := by
  intro h
  rw [onCounting, Action.after_focus]
  exact hx ⟨h.state.counting, h.bus⟩

/-- The initialisation leaves the counting setup. -/
lemma leaves_initialise : Leaves setup initialise := by
  intro h
  cases hr : initialise h with
  | ok u h' =>
    obtain ⟨ps, ⟨r, -, -, hstate⟩, -⟩ := (follows_initialise h.state).of_ok hr
    rw [after_of_ok hr, setup, hstate]
    rfl
  | error e h' =>
    rw [after_of_error hr]
    rcases (follows_initialise h.state).of_error hr with rfl | ⟨ps, hstate, -⟩
    · rfl
    · rw [setup, hstate]
      rfl

/-- A switch of a line leaves the counting setup. -/
lemma leaves_switchLine (index : UInt8) (update : LineState → LineState) :
    Leaves setup (switchLine index update) := by
  refine .of_keeps (S := fun _ => True) fun c => ?_
  refine .state_bind fun h _ => .bind (.ite (fun _ => .throw_bind) fun _ => ?_) fun _ => ?_
  · exact .bind (.set trivial) fun _ => .bind (.set trivial) fun _ => .commit trivial
  · exact .bind (.change fun _ hc => hc) fun _ => .pure _

/-- A reading of the time tags leaves the counting setup. -/
lemma leaves_drainTimetags : Leaves setup drainTimetags := by
  refine .of_keeps (S := fun _ => True) fun c => ?_
  refine .bind (.read trivial trivial) fun words => .ite (fun _ => .pure _) fun _ => ?_
  exact .bind (.readPipe trivial) fun _ => .pure _

end Host

namespace Instrument

/-- The counting setup of an instrument. -/
def setup (i : Instrument) : Counting := i.host.counting

/-- A transaction leaves the counting setup if its work does. -/
lemma leaves_transaction {α : Type} {work : Action Host α} (hw : Leaves Host.setup work) :
    Leaves setup (transaction work) := by
  intro i
  by_cases hattached : i.link.attached = true
  · rw [setup, host, Link.state, (after_transaction_of_attached work hattached).1]
    exact hw i.link.held
  · rw [after_of_error (transaction_of_detached work hattached)]

/-- An attempt to connect leaves the counting setup. -/
lemma leaves_connect : Leaves setup connect := by
  intro i
  rw [setup, host, Link.state]
  rcases (after_connect i).1 with hheld | hheld
  · rw [hheld]
    rfl
  · rw [hheld]
    exact Host.leaves_initialise i.link.held

/-- The sequencer has no access to the counting setup. -/
lemma leaves_controller {α : Type} (x : Action Controller α) :
    Leaves setup (transaction (Host.onController x)) :=
  leaves_transaction (Host.leaves_onController x)

/-- A switch of a channel leaves the counting setup. -/
lemma leaves_switchLine (channel : String) (update : LineState → LineState) :
    Leaves setup (switchLine channel update) :=
  leaves_switchLine_of_transaction fun index =>
    leaves_transaction (Host.leaves_switchLine index update)

/-- Whether a command changes the counting setup. -/
def Command.reconfigures : Command → Bool
  | setMode _ | setCollectionTime _ _ => true
  | _ => false

/-- Every other command leaves the counting setup alone, however it ends. -/
lemma Command.leaves_setup {c : Command} (hc : c.reconfigures = false) : Leaves setup c.work := by
  cases c with
  | setMode | setCollectionTime => cases hc
  | connect => exact leaves_connect
  | program p => exact leaves_controller _
  | programSequence s => exact leaves_ofExcept_bind fun p => leaves_controller _
  | startSingle => exact leaves_controller _
  | startInfinite => exact leaves_controller _
  | startCounted count => exact leaves_ofExcept_bind fun _ => leaves_controller _
  | complete => exact leaves_controller _
  | stop => exact leaves_controller _
  | repetitions => exact (leaves_controller _).discard
  | pollDone => exact (leaves_controller _).discard
  | counts readTime =>
    refine (leaves_transaction (Host.leaves_onCounting ?_)).discard
    exact .of_keeps (f := id) fun _ => Counting.keeps_drain readTime
  | resetCounts =>
    refine leaves_transaction (Host.leaves_onCounting ?_)
    exact .of_keeps (f := id) fun _ => Counting.keeps_resetFifo
  | timetags => exact (leaves_transaction Host.leaves_drainTimetags).discard
  | resetTimetags =>
    exact leaves_transaction (.of_keeps (S := fun _ => True) fun _ => .trigger trivial)
  | switchManual origin channel level =>
    exact (leaves_switchLine channel _).bind fun _ _ => rfl
  | switchAuto origin channel inverted =>
    exact (leaves_switchLine channel _).bind fun _ _ => rfl
  | disconnect | openSession | closeSession | takeNotice | takeNotices => exact fun _ => rfl

/-- Whether an event is a command that changes the counting setup. -/
def Event.reconfigures : Event → Bool
  | command c => c.reconfigures
  | bus _ => false

/-- Only a command that changes the counting setup changes it. -/
lemma setup_of_run {events : List Event} (hevents : ∀ e ∈ events, e.reconfigures = false)
    (i : Instrument) : (i.run events).setup = i.setup := by
  induction events generalizing i with
  | nil => rfl
  | cons e events ih =>
    obtain ⟨he, hrest⟩ := List.forall_mem_cons.mp hevents
    have hfirst : (e.apply i).setup = i.setup := by
      cases e with
      | command c => exact Command.leaves_setup he i
      | bus e => rfl
    exact (ih hrest (e.apply i)).trans hfirst

end Instrument

/-! ## Changes that fail -/

namespace Counting

variable {c c' : Counting}

/-- A new mode is kept, however telling the board of it ends. -/
lemma brings_setMode (c : Counting) (mode : CollectionMode) :
    Brings (setMode mode) c (fun _ _ c' => c' = { c with mode }) fun _ c' => c' = { c with mode } :=
  .change_bind (.bind (brings_apply (fun _ => rfl) (.issue rfl fun _ => rfl)))

/-- A new collection time in range is kept, however telling the board of it ends. -/
lemma brings_setNormalTime {seconds : Float} (h : c.store seconds .normal = .ok c') :
    Brings (setNormalTime seconds) c (fun _ _ s => s = c') fun _ s => s = c' := by
  refine .state_bind (.ofExcept_bind h (.change_bind ?_))
  exact .issue_bind rfl fun _ => .issue_bind rfl fun _ => .issue rfl fun _ => rfl

/-- A collection time is refused for being out of range only. -/
lemma checkTime_eq_error {seconds : Float} {e : Error} (h : c.checkTime seconds = .error e) :
    ∃ o, e = .outOfRange o := by
  unfold checkTime at h
  split at h <;> cases h
  exact ⟨_, rfl⟩

end Counting

namespace Instrument

/-- The counting setup that a command asks for, if it is to be told to the board. -/
def Command.asks (c : Counting) : Command → Option Counting
  | setMode mode => some { c with mode }
  | setCollectionTime seconds .normal => some { c with times := c.times.set .normal seconds }
  | _ => none

variable {i i' : Instrument} {c : Command} {asked : Counting} {e : Error}

/-- A change that fails as a transaction on an attached board failed on the bus. -/
lemma setup_of_transaction_error (hattached : i.link.attached = true) {x : Action Counting Unit}
    {E : Unit → List Primitive → Counting → Prop} (hx : Brings x i.setup E fun _ c' => c' = asked)
    (herror : transaction (Host.onCounting x) i = .error e i') : e.OfBus ∧ i'.setup = asked := by
  obtain ⟨link, hlink, rfl⟩ := error_of_onLink herror
  rcases Link.transaction_cases_of_error hlink with ⟨hdetached, -⟩ | ⟨held, hwork, rfl⟩
  · rw [hattached] at hdetached
    cases hdetached
  · have brings : Brings (Host.onCounting x) i.host (fun _ _ _ => True)
        fun _ h => h.counting = asked :=
      .focus (hx.mono (fun _ _ _ _ => trivial) fun _ _ h => h)
    obtain ⟨ps, hasked, hfails⟩ := brings.of_error hwork
    exact ⟨hfails.ofBus, hasked⟩

/-- A change that fails was refused since its time is out of range, or is kept by the host. -/
lemma Command.setup_of_error (hattached : i.link.attached = true)
    (hc : c.asks i.setup = some asked) (herror : c.work i = .error e i') :
    (∃ o, e = .outOfRange o) ∧ i'.setup = i.setup ∨ e.OfBus ∧ i'.setup = asked := by
  cases c with
  | setMode mode =>
    cases hc
    exact .inr (setup_of_transaction_error hattached (Counting.brings_setMode _ mode) herror)
  | setCollectionTime seconds mode =>
    cases mode with
    | differential => cases hc
    | normal =>
      cases hc
      have hwork : (ofExcept (i.setup.checkTime seconds) >>= fun _ =>
          transaction (Host.onCounting (Counting.setNormalTime seconds))) i = .error e i' := herror
      -- the time is checked before anything is asked of the link
      cases hcheck : i.setup.checkTime seconds with
      | error e' =>
        rw [hcheck] at hwork
        cases hwork
        exact .inl ⟨Counting.checkTime_eq_error hcheck, rfl⟩
      | ok u =>
        rw [hcheck] at hwork
        have hstore : i.setup.store seconds .normal =
            .ok { i.setup with times := i.setup.times.set .normal seconds } := by
          rw [Counting.store, hcheck]
          rfl
        have hbrings := Counting.brings_setNormalTime hstore
        exact .inr (setup_of_transaction_error hattached hbrings hwork)
  | _ => cases hc

/-- The counting setup is as it was, and until it is changed counts are converted with the window
that was in force before. -/
structure SetupKept (i i' : Instrument) : Prop where
  mode : i'.setup.mode = i.setup.mode
  times : ∀ mode, i'.setup.times.get mode = i.setup.times.get mode
  rates : ∀ events, (∀ e ∈ events, e.reconfigures = false) → ∀ readTime samples j,
    counts readTime (i'.run events) = .ok samples j →
      samples = Sample.ofRecords
        (Outlet.counts.answer (i'.run events) (.command (.counts readTime)))
        i.setup.collectionTime readTime

/-- If the counting setup is as it was, so is the conversion of counts. -/
lemma setupKept_of_setup_eq (h : i'.setup = i.setup) : SetupKept i i' where
  mode := by rw [h]
  times _ := by rw [h]
  rates events hevents readTime samples j hok := by
    have hsetup : (i'.run events).setup = i.setup := (setup_of_run hevents i').trans h
    rw [samples_of_ok hok]
    show Sample.ofRecords _ (i'.run events).setup.collectionTime readTime = _
    rw [hsetup]

/-- What a change asks for is the old setup, if it has the same mode and the same times. -/
lemma Command.asks_eq (hc : c.asks i.setup = some asked) (hmode : asked.mode = i.setup.mode)
    (htimes : ∀ mode, asked.times.get mode = i.setup.times.get mode) : asked = i.setup := by
  have hrange : asked.range = i.setup.range := by
    cases c with
    | setMode mode => cases hc; rfl
    | setCollectionTime seconds mode => cases mode <;> cases hc; rfl
    | _ => cases hc
  generalize i.setup = old at *
  obtain ⟨mode, ⟨normal, differential⟩, range⟩ := asked
  obtain ⟨mode', ⟨normal', differential'⟩, range'⟩ := old
  have hnormal : normal = normal' := htimes .normal
  have hdifferential : differential = differential' := htimes .differential
  cases hmode
  cases hrange
  rw [hnormal, hdifferential]

/-- A change of the counting setup that fails on an attached board has left the setup as it was
exactly if it asked for the setup in force, or for a time that is out of range. Otherwise the host
has the setup that was asked for. -/
theorem failed_reconfiguration_kept_iff (hattached : i.link.attached = true)
    (hc : c.asks i.setup = some asked) (herror : c.work i = .error e i') :
    (SetupKept i i' ↔ asked = i.setup ∨ ∃ o, e = .outOfRange o) ∧
      ((∀ o, e ≠ .outOfRange o) → i'.setup = asked) := by
  rcases Command.setup_of_error hattached hc herror with ⟨⟨o, ho⟩, hsame⟩ | ⟨hbus, hasked⟩
  · exact ⟨iff_of_true (setupKept_of_setup_eq hsame) (.inr ⟨o, ho⟩), fun h => absurd ho (h o)⟩
  · have hrange : ∀ o, e ≠ .outOfRange o := by
      rintro o rfl
      rcases Error.ofBus_iff.mp hbus with ⟨f, hf⟩ | hkilled
      · cases hf
      · cases hkilled
    refine ⟨⟨fun kept => .inl ?_, ?_⟩, fun _ => hasked⟩
    · exact Command.asks_eq hc (hasked ▸ kept.mode) (hasked ▸ kept.times)
    · rintro (hold | ⟨o, ho⟩)
      · exact setupKept_of_setup_eq (hasked.trans hold)
      · exact absurd ho (hrange o)

/-- An instrument with its board attached, and a fault that stops the next operation. -/
def cutOff : Instrument :=
  (after connect unconnected).run
    [.bus (.expect (some ⟨0, .reported (.failed "primitive" "link")⟩))]

set_option maxRecDepth 20000 in
/-- A change to the mode that is in force anyway fails and leaves the setup as it was. -/
theorem mode_in_force_kept :
    cutOff.link.attached = true ∧ (Command.setMode .normal).asks cutOff.setup = some cutOff.setup ∧
      ∃ i', (Command.setMode .normal).work cutOff =
          .error (.transport (.failed "primitive" "link")) i' ∧ SetupKept cutOff i' := by
  have hattached : cutOff.link.attached = true := rfl
  have hasks : (Command.setMode .normal).asks cutOff.setup = some cutOff.setup := rfl
  have herror : (Command.setMode .normal).work cutOff =
      .error (.transport (.failed "primitive" "link")) (after (setMode .normal) cutOff) := rfl
  exact ⟨hattached, hasks, _, herror,
    (failed_reconfiguration_kept_iff hattached hasks herror).1.mpr (.inl rfl)⟩

set_option maxRecDepth 20000 in
/-- A change of the collection time that failed with its first operation is in force. -/
theorem setup_after_failed_change :
    ∃ i i' f, Reachable i ∧ i.link.attached = true ∧
      (Command.setCollectionTime 0.2 .normal).work i = .error (.transport f) i' ∧
      ¬SetupKept i i' := by
  have herror : (Command.setCollectionTime 0.2 .normal).work cutOff =
      .error (.transport (.failed "primitive" "link"))
        (after (setCollectionTime 0.2 .normal) cutOff) := rfl
  refine ⟨cutOff, _, _, .run (.opened opened_unconnected) _, rfl, herror, fun kept => ?_⟩
  have htimes : (0.2 : Float) = 0.1 := kept.times .normal
  exact absurd htimes (by decide)

end Instrument

end PulseSequencer
