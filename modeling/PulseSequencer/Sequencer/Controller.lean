import PulseSequencer.Wire
import PulseSequencer.Program

/-!
# Sequencer control

The controller is the host's view of the sequencer. A program is uploaded, then started; it runs
once, without end or a counted number of times. A run that ended by itself leaves its run bits on
the control wire: a stop is still accepted then, and the next start clears them first, so that the
sequencer always sees a rising run bit. Every check is made before the board is touched.

* `Controller`: the state of the sequencer and the run bits left to clear.
* `Controller.program`, `Controller.startSingle`, `Controller.startInfinite`,
  `Controller.startCounted`, `Controller.complete`, `Controller.stop`: the commands.
* `Controller.pollDone`, `Controller.repetitions`: the questions.
-/

namespace PulseSequencer

/-- The host's view of the sequencer. -/
structure Controller where
  state : RunState
  /-- The sequencer field that ends a run which finished without being stopped. -/
  finished : Option Word
  deriving DecidableEq, Repr

namespace Controller

/-- Nothing is uploaded and nothing is left to clear. -/
def idle : Controller := ⟨.idle, none⟩

instance : Inhabited Controller := ⟨idle⟩

/-- Accepts a number of repetitions that the board can count. -/
def checkRepetitions (count : Nat) : Except Error UInt16 :=
  if 1 ≤ count ∧ count ≤ 65535 then .ok (UInt16.ofNat count)
  else .error (.outOfRange (.repetitions count))

/-- Accepts a state in which a run may be started. -/
def checkStartable : RunState → Except Error Unit
  | .programmed => .ok ()
  | .idle => .error .notProgrammed
  | s => .error (.busy (.sequencer s))

/-- Goes to another state. -/
def enter (state : RunState) : Action Controller Unit := Action.change ({ · with state })

/-- Writes the sequencer field of the control wire. -/
def setRun (bits : Word) : Action Controller Unit :=
  Wire.write Endpoint.control bits Control.sequencer

/-- Clears the run bits that a finished run left. -/
def clearFinished : Action Controller Unit := do
  match (← Action.state).finished with
  | none => pure ()
  | some stop =>
    setRun stop
    Action.change ({ · with finished := none })

/-- Uploads a program, unless the sequencer runs. -/
def program (p : Program) : Action Controller Unit := do
  let c ← Action.state
  if c.state.isRunning then throw (.busy (.sequencer c.state))
  Wire.trigger Pulse.resetMemory
  let _ ← Wire.writePipe Endpoint.program p.bytes
  Wire.trigger Pulse.resetCounter
  enter .programmed

/-- Accepts a start and clears what a finished run left. -/
def prepareStart : Action Controller Unit := do
  Action.ofExcept (checkStartable (← Action.state).state)
  clearFinished

/-- Runs the program once. -/
def startSingle : Action Controller Unit := do
  prepareStart
  Wire.trigger Pulse.resetCounter
  setRun Control.startSingle
  enter .runningSingle

/-- Starts a looped run of a number of repetitions, 0 for no end. -/
def startLooped (repetitions : Word) (running : RunState) : Action Controller Unit := do
  prepareStart
  Wire.write Endpoint.repetitions repetitions Word.all
  Wire.trigger Pulse.resetCounter
  setRun Control.startLooped
  enter running

/-- Runs the program until it is stopped. -/
def startInfinite : Action Controller Unit := startLooped 0 .runningInfinite

/-- Runs the program a number of times. -/
def startCounted (count : Nat) : Action Controller Unit := do
  let n ← Action.ofExcept (checkRepetitions count)
  startLooped (BitVec.ofNat 32 n.toNat) (.runningCounted n)

/-- The sequencer field that ends the current run, or the one that finished by itself. -/
def stopBits (c : Controller) : Except Error Word :=
  match c.state, c.finished with
  | .runningSingle, _ => .ok Control.stopSingle
  | .runningInfinite, _ | .runningCounted _, _ => .ok Control.stopLooped
  | .programmed, some stop => .ok stop
  | s, _ => .error (.invalidMode (.nothingToStop s))

/-- Halts the sequencer and clears its program. -/
def stop : Action Controller Unit := do
  let bits ← Action.ofExcept (← Action.state).stopBits
  Wire.trigger Pulse.resetMemory
  setRun bits
  Wire.trigger Pulse.resetCounter
  Action.change fun _ => idle

/-- Lets an infinite run finish its current cycle and halt. -/
def complete : Action Controller Unit := do
  let c ← Action.state
  if c.state ≠ .runningInfinite then throw (.invalidMode (.notInfinite c.state))
  setRun Control.startSingle
  enter .runningSingle

/-- The controller after its run was seen to end. An infinite run does not end by itself. -/
def finish (c : Controller) : Controller :=
  match c.state with
  | .runningSingle => ⟨.programmed, some Control.stopSingle⟩
  | .runningCounted _ => ⟨.programmed, some Control.stopLooped⟩
  | .idle | .programmed | .runningInfinite => c

/-- Reads the done flag once. The program of a run that ended stays in memory. -/
def pollDone : Action Controller Bool := do
  let done := (← Wire.readout .done) ≠ 0
  if done then Action.change finish
  return done

/-- The repetitions completed in a looped run. -/
def repetitions : Action Controller Word := do
  match (← Action.state).state with
  | .runningInfinite | .runningCounted _ => Wire.readout .repetitions
  | s => throw (.invalidMode (.notLooped s))

end Controller

end PulseSequencer
