import PulseSequencer.Proofs.Board.Wires
import PulseSequencer.Proofs.Outcome
import PulseSequencer.Proofs.Sequencer.Run

/-!
# What the sequencer's commands do

Every command is refused before anything is done, or it is accepted: then it brings one list of
operations to the board, which the state of the controller decides, and leaves one state. If that
fails with the first operation, the state stays.

* `Controller.clearing`, `Controller.repeating`, `Controller.launching`: the parts of a start.
* `Controller.Does`: what an accepted command does.
* `Controller.Does.settles`, `Controller.Does.writeOnly`: it leaves nothing that waits for a commit,
  and writes to the fields of the sequencer and of the readout only.
* `Controller.Command.follows`: a command is refused or does that.
-/

namespace PulseSequencer

/-- To ask for a quantity writes the readout field. -/
lemma Wire.writeOnly_asking (select : Readout) :
    Primitive.WriteOnly [(Endpoint.control, Control.readout)] (Wire.asking select) := by
  simp [Primitive.WriteOnly, Wire.asking]

namespace Controller

/-- The operations that clear the run bits a finished run left. -/
def clearing (c : Controller) : List Primitive :=
  match c.finished with
  | none => []
  | some stop => [.setWire Endpoint.control stop Control.sequencer, .commit]

/-- The operations that tell the board how often to repeat a run. -/
def repeating (repetitions : Word) : List Primitive :=
  [.setWire Endpoint.repetitions repetitions Word.all, .commit]

/-- The operations that start a run with the sequencer field `bits`. -/
def launching (bits : Word) : List Primitive :=
  [.trigger Endpoint.trigger Pulse.resetCounter, .setWire Endpoint.control bits Control.sequencer,
    .commit]

/-- What an accepted command does on a controller `c`: the operations that it brings to the board,
and the controller that it leaves. -/
inductive Does (c : Controller) : Command → List Primitive → Controller → Prop where
  | program (p : Program) (h : c.state.isRunning = false) :
      Does c (.program p) (uploading p) { c with state := .programmed }
  | startSingle (h : c.state = .programmed) :
      Does c .startSingle (c.clearing ++ launching Control.startSingle) ⟨.runningSingle, none⟩
  | startInfinite (h : c.state = .programmed) :
      Does c .startInfinite (c.clearing ++ repeating 0 ++ launching Control.startLooped)
        ⟨.runningInfinite, none⟩
  | startCounted {count : Nat} {n : UInt16} (h : c.state = .programmed)
      (hcount : checkRepetitions count = .ok n) :
      Does c (.startCounted count)
        (c.clearing ++ repeating (BitVec.ofNat 32 n.toNat) ++ launching Control.startLooped)
        ⟨.runningCounted n, none⟩
  | complete (h : c.state = .runningInfinite) :
      Does c .complete [.setWire Endpoint.control Control.startSingle Control.sequencer, .commit]
        { c with state := .runningSingle }
  | stop {bits : Word} (h : c.stopBits = .ok bits) : Does c .stop (halting bits) idle
  | pollDone (done : Bool) :
      Does c .pollDone (Wire.asking .done) (if done then c.finish else c)
  | repetitions (h : c.state.isRunning = true) (hlooped : c.state ≠ .runningSingle) :
      Does c .repetitions (Wire.asking .repetitions) c

variable {c c' : Controller} {α : Type}

/-- To clear the run bits leaves nothing staged. -/
lemma settles_clearing (c : Controller) : c.clearing.foldl Primitive.settles true = true := by
  obtain ⟨state, finished⟩ := c
  cases finished <;> rfl

/-- A command that is accepted leaves nothing staged. -/
lemma Does.settles {command : Command} {ps : List Primitive} (h : c.Does command ps c') :
    ps.foldl Primitive.settles true = true := by
  cases h with
  | startSingle _ =>
    rw [List.foldl_append, settles_clearing]
    rfl
  | startInfinite _ =>
    rw [List.append_assoc, List.foldl_append, settles_clearing]
    rfl
  | startCounted _ _ =>
    rw [List.append_assoc, List.foldl_append, settles_clearing]
    rfl
  | _ => rfl

/-- The fields that commands write to. -/
def fields : List (Address × Word) :=
  [(Endpoint.control, Control.sequencer), (Endpoint.repetitions, Word.all),
    (Endpoint.control, Control.readout)]

/-- To clear the run bits writes fields of the sequencer. -/
lemma writeOnly_clearing (c : Controller) : Primitive.WriteOnly fields c.clearing := by
  obtain ⟨state, finished⟩ := c
  cases finished <;> simp [Primitive.WriteOnly, clearing, fields]

/-- To tell the repetitions writes fields of the sequencer. -/
lemma writeOnly_repeating (repetitions : Word) :
    Primitive.WriteOnly fields (repeating repetitions) := by
  simp [Primitive.WriteOnly, repeating, fields]

/-- A launch writes fields of the sequencer. -/
lemma writeOnly_launching (bits : Word) : Primitive.WriteOnly fields (launching bits) := by
  simp [Primitive.WriteOnly, launching, fields]

/-- Commands write to the fields of the sequencer and of the readout only. -/
lemma Does.writeOnly {command : Command} {ps : List Primitive} (h : c.Does command ps c') :
    Primitive.WriteOnly fields ps := by
  have asking (select : Readout) : Primitive.WriteOnly fields (Wire.asking select) :=
    (Wire.writeOnly_asking select).mono (by simp [fields])
  cases h with
  | program p _ => simp [Primitive.WriteOnly, uploading]
  | startSingle _ => exact (writeOnly_clearing c).append (writeOnly_launching _)
  | startInfinite _ =>
    exact ((writeOnly_clearing c).append (writeOnly_repeating _)).append (writeOnly_launching _)
  | startCounted _ _ =>
    exact ((writeOnly_clearing c).append (writeOnly_repeating _)).append (writeOnly_launching _)
  | complete _ => simp [Primitive.WriteOnly, fields]
  | stop _ => simp [Primitive.WriteOnly, halting, fields]
  | pollDone _ => exact asking .done
  | repetitions _ _ => exact asking .repetitions

/-- A stop that is accepted has something to stop. -/
lemma Does.stopBits {ps : List Primitive} (h : c.Does .stop ps c') :
    ∃ bits, c.stopBits = .ok bits := by
  cases h with
  | stop hbits => exact ⟨_, hbits⟩

/-! ## Parts of a start -/

/-- A start is refused if there is no program to run. -/
lemma refuses_prepareStart (h : c.state ≠ .programmed) : Refuses prepareStart c := by
  obtain ⟨state, finished⟩ := c
  refine .state_bind (.bind ?_)
  cases state with
  | programmed => exact absurd rfl h
  | _ => exact .ofExcept rfl

/-- What follows the first part of a start finds nothing left of a finished run. -/
lemma brings_prepareStart_bind (h : c.state = .programmed) {f : Unit → Action Controller α}
    {E : α → List Primitive → Controller → Prop} {F : List Primitive → Controller → Prop}
    (hF : ∀ ps, F ps c)
    (hf : Brings (f ()) ⟨.programmed, none⟩ (fun a ps => E a (c.clearing ++ ps))
      fun ps => F (c.clearing ++ ps)) : Brings (prepareStart >>= f) c E F := by
  obtain ⟨state, finished⟩ := c
  cases h
  refine .bind (.state_bind (.ofExcept_bind rfl (.state_bind ?_)))
  cases finished with
  | none => exact .pure hf
  | some stop => exact .write_bind (hF _) (hF _) (.change hf)

/-- If the first part of a start brings nothing to the board, it changes nothing. -/
lemma untouched_clearing (h : c.state = .programmed) (ps : List Primitive) :
    Untouched c (c.clearing ++ ps) ⟨.programmed, none⟩ := by
  obtain ⟨state, finished⟩ := c
  cases h
  cases finished with
  | none => exact untouched_self ps
  | some stop => exact untouched_cons _ _ _

/-- A launch brings its operations, and the sequencer runs after them. -/
lemma brings_launch {bits : Word} {running : RunState}
    {E : Unit → List Primitive → Controller → Prop} {F : List Primitive → Controller → Prop}
    (hF : ∀ ps, F ps c) (hE : E () (launching bits) { c with state := running }) :
    Brings (Wire.trigger Pulse.resetCounter >>= fun _ => setRun bits >>= fun _ => enter running) c
      E F :=
  .issue_bind (hF _) fun _ => .write_bind (hF _) (hF _) (.change hE)

/-! ## The commands -/

/-- An upload does what it should. -/
lemma follows_program (p : Program) :
    Follows (Controller.program p) c (Does c (.program p)) (Untouched c) := by
  by_cases h : c.state.isRunning = true
  · refine .inl ⟨.state_bind ?_, fun ps c' hdoes => ?_⟩
    · rw [if_pos h]
      exact .bind (.throw _)
    · cases hdoes with
      | program _ hstate => exact Bool.false_ne_true (hstate.symm.trans h)
  · refine .inr (.state_bind ?_)
    rw [if_neg h]
    refine .issue_bind (untouched_self _) fun _ => .issue_bind (untouched_cons _ _ _) fun _ => ?_
    refine .issue_bind (untouched_cons _ _ _) fun _ => .change ?_
    exact .program p (Bool.eq_false_of_not_eq_true h)

/-- The start of a single run does what it should. -/
lemma follows_startSingle : Follows startSingle c (Does c .startSingle) (Untouched c) := by
  by_cases h : c.state = .programmed
  · refine .inr (brings_prepareStart_bind h (fun _ => untouched_self _) ?_)
    exact brings_launch (fun _ => untouched_clearing h _) (.startSingle h)
  · refine .inl ⟨.bind (refuses_prepareStart h), fun ps c' hdoes => ?_⟩
    cases hdoes
    contradiction

/-- A looped run starts from a program: the repetitions are told, and then it is launched. -/
lemma brings_startLooped (h : c.state = .programmed) {repetitions : Word} {running : RunState}
    {D : List Primitive → Controller → Prop}
    (hD : D (c.clearing ++ repeating repetitions ++ launching Control.startLooped)
      ⟨running, none⟩) :
    Brings (startLooped repetitions running) c (fun _ => D) (Untouched c) := by
  rw [List.append_assoc] at hD
  refine brings_prepareStart_bind h (fun _ => untouched_self _) ?_
  refine .write_bind (untouched_clearing h _) (untouched_clearing h _) ?_
  exact brings_launch (fun _ => untouched_clearing h _) hD

/-- The start of a run without end does what it should. -/
lemma follows_startInfinite : Follows startInfinite c (Does c .startInfinite) (Untouched c) := by
  by_cases h : c.state = .programmed
  · exact .inr (brings_startLooped h (.startInfinite h))
  · refine .inl ⟨.bind (refuses_prepareStart h), fun ps c' hdoes => ?_⟩
    cases hdoes
    contradiction

/-- The start of a counted run does what it should. -/
lemma follows_startCounted (count : Nat) :
    Follows (startCounted count) c (Does c (.startCounted count)) (Untouched c) := by
  cases hcount : checkRepetitions count with
  | error e =>
    refine .inl ⟨.bind (.ofExcept hcount), fun ps c' hdoes => ?_⟩
    cases hdoes with
    | startCounted _ hn => cases hcount.symm.trans hn
  | ok n =>
    by_cases h : c.state = .programmed
    · exact .inr (.ofExcept_bind hcount (brings_startLooped h (.startCounted h hcount)))
    · refine .inl ⟨.ofExcept_bind hcount (.bind (refuses_prepareStart h)), fun ps c' hdoes => ?_⟩
      cases hdoes
      contradiction

/-- To let a run without end finish its cycle does what it should. -/
lemma follows_complete : Follows complete c (Does c .complete) (Untouched c) := by
  by_cases h : c.state = .runningInfinite
  · refine .inr (.state_bind ?_)
    rw [if_neg (not_not_intro h)]
    exact .write_bind (untouched_self _) (untouched_cons _ _ _) (.change (.complete h))
  · refine .inl ⟨.state_bind ?_, fun ps c' hdoes => ?_⟩
    · rw [if_pos h]
      exact .bind (.throw _)
    · cases hdoes
      contradiction

/-- A stop does what it should. -/
lemma follows_stop : Follows stop c (Does c .stop) (Untouched c) := by
  cases h : c.stopBits with
  | error e =>
    refine .inl ⟨.state_bind (.bind (.ofExcept h)), fun ps c' hdoes => ?_⟩
    cases hdoes with
    | stop hbits => cases h.symm.trans hbits
  | ok bits =>
    refine .inr (.state_bind (.ofExcept_bind h (.issue_bind (untouched_self _) fun _ => ?_)))
    refine .write_bind (untouched_cons _ _ _) (untouched_cons _ _ _) ?_
    exact .issue_bind (untouched_cons _ _ _) fun _ => .change (.stop h)

/-- A poll does what it should. -/
lemma follows_pollDone : Follows pollDone c (Does c .pollDone) (Untouched c) := by
  refine .inr (.bind (.readout (fun _ => untouched_self _) fun word => ?_))
  by_cases h : word = 0
  · rw [if_neg (not_not_intro h)]
    exact .pure (.pollDone false)
  · rw [if_pos h]
    exact .change_bind (.pure (.pollDone true))

/-- A question for the repetitions does what it should. -/
lemma follows_repetitions : Follows repetitions c (Does c .repetitions) (Untouched c) := by
  obtain ⟨state, finished⟩ := c
  cases state with
  | runningInfinite =>
    exact .inr (.state_bind (.readout (fun _ => untouched_self _) fun _ => .repetitions rfl nofun))
  | runningCounted n =>
    exact .inr (.state_bind (.readout (fun _ => untouched_self _) fun _ => .repetitions rfl nofun))
  | _ =>
    refine .inl ⟨.state_bind (.throw _), fun ps c' hdoes => ?_⟩
    cases hdoes
    contradiction

/-- A command is accepted exactly if there is something for it to do, and does that. -/
theorem Command.follows (command : Command) (c : Controller) :
    Follows command.work c (Does c command) (Untouched c) := by
  cases command with
  | program p => exact follows_program p
  | startSingle => exact follows_startSingle
  | startInfinite => exact follows_startInfinite
  | startCounted count => exact follows_startCounted count
  | complete => exact follows_complete
  | stop => exact follows_stop
  | pollDone => exact follows_pollDone.discard
  | repetitions => exact follows_repetitions.discard

end Controller

end PulseSequencer
