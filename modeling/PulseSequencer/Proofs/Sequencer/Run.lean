import PulseSequencer.Sequencer.Controller
import PulseSequencer.Proofs.Action

/-!
# Runs of the sequencer

The commands of the sequencer as data, in runs in which any operation on the board may fail. An
upload and a stop issue a fixed list of operations and change the state afterwards.

* `Controller.Command`, `Controller.Step`, `Controller.run`: commands, and runs of them.
* `Controller.uploading`, `Controller.program_of_not_running`: an upload as a list of operations.
* `Controller.halting`, `Controller.stop_of_ok`: a stop as a list of operations.
-/

namespace PulseSequencer.Controller

/-- A command to the sequencer or a question to it. -/
inductive Command where
  | program (p : Program)
  | startSingle
  | startInfinite
  | startCounted (count : Nat)
  | complete
  | stop
  | pollDone
  | repetitions

/-- The work of a command; what it answers is left out. -/
def Command.work : Command → Action Controller Unit
  | program p => Controller.program p
  | startSingle => Controller.startSingle
  | startInfinite => Controller.startInfinite
  | startCounted count => Controller.startCounted count
  | complete => Controller.complete
  | stop => Controller.stop
  | pollDone => do let _ ← Controller.pollDone
  | repetitions => do let _ ← Controller.repetitions

/-- Whether a command starts the sequencer. -/
def Command.starts : Command → Bool
  | startSingle | startInfinite | startCounted _ => true
  | _ => false

/-- A command, the fault that lies in wait for it, and what the sequencer shows meanwhile. -/
structure Step where
  command : Command
  fault : Option Fault
  done : Bool
  repetitions : Word

/-- The board on which a step finds its work. -/
def Step.prepare (s : Step) (h : Held Controller) : Held Controller :=
  { h with bus := ⟨(h.bus.board.setDone s.done).setRepetitions s.repetitions, s.fault⟩ }

/-- What a transaction holds after a step, whether the command succeeded or failed. -/
def Step.perform (s : Step) (h : Held Controller) : Held Controller :=
  after s.command.work (s.prepare h)

/-- What a transaction holds after a run. -/
def run (h : Held Controller) (steps : List Step) : Held Controller :=
  steps.foldl (fun h s => s.perform h) h

/-- A board that was just attached, and a sequencer without a program. -/
def fresh (board : Board) : Held Controller := ⟨.idle, .new board.plug⟩

/-- The last step of a run comes last. -/
lemma run_append (h : Held Controller) (steps : List Step) (s : Step) :
    run h (steps ++ [s]) = s.perform (run h steps) := by
  rw [run, List.foldl_append]
  rfl

/-- A step is the work of its command on the board that it finds. -/
lemma perform_eq {s : Step} {command : Command} (hs : s.command = command) (h : Held Controller) :
    s.perform h = after command.work (s.prepare h) := by
  rw [Step.perform, hs]

/-! ## Uploads -/

/-- The operations of an upload. -/
def uploading (p : Program) : List Primitive :=
  [.trigger Endpoint.trigger Pulse.resetMemory, .writePipe Endpoint.program p.bytes,
    .trigger Endpoint.trigger Pulse.resetCounter]

/-- An upload is refused while the sequencer runs. -/
lemma program_of_running {h : Held Controller} (hrun : h.state.state.isRunning = true)
    (p : Program) : program p h = .error (.busy (.sequencer h.state.state)) h := by
  rw [program, Action.state_bind, if_pos hrun]
  rfl

/-- Otherwise an upload is its operations, and then there is a program. -/
lemma program_of_not_running {h : Held Controller} (hrun : h.state.state.isRunning = false)
    (p : Program) :
    program p h = (Action.issueAll (uploading p) >>= fun _ =>
      Action.change ({ · with state := .programmed })) h := by
  simp only [uploading, Action.issueAll_cons_bind, Action.issueAll_nil_bind]
  rw [program, Action.state_bind, if_neg (by simp [hrun])]
  rfl

/-! ## Stops -/

/-- The operations of a stop that ends a run with `bits`. -/
def halting (bits : Word) : List Primitive :=
  [.trigger Endpoint.trigger Pulse.resetMemory, .setWire Endpoint.control bits Control.sequencer,
    .commit, .trigger Endpoint.trigger Pulse.resetCounter]

/-- A stop is refused if there is nothing to stop. -/
lemma stop_of_error {h : Held Controller} {e : Error} (hbits : h.state.stopBits = .error e) :
    stop h = .error e h := by
  rw [stop, Action.state_bind, hbits]
  rfl

/-- Otherwise a stop is its operations, and then the sequencer is idle. -/
lemma stop_of_ok {h : Held Controller} {bits : Word} (hbits : h.state.stopBits = .ok bits) :
    stop h = (Action.issueAll (halting bits) >>= fun _ => Action.change fun _ => idle) h := by
  simp only [halting, Action.issueAll_cons_bind, Action.issueAll_nil_bind]
  have hstop : stop h = (do
      Wire.trigger Pulse.resetMemory
      setRun bits
      Wire.trigger Pulse.resetCounter
      Action.change fun _ => idle) h := by
    rw [stop, Action.state_bind, hbits]
    rfl
  rw [hstop]
  simp only [setRun, Wire.write, bind_assoc]
  rfl

/-- A stop is accepted only when there is something to stop. -/
lemma state_ne_idle_of_stopBits {c : Controller} {bits : Word} (h : c.stopBits = .ok bits) :
    c.state ≠ .idle := by
  intro hidle
  rw [stopBits, hidle] at h
  cases h

end PulseSequencer.Controller
