/-!
# States of the sequencer

The sequencer is idle until a program is uploaded, then programmed, and running once it was started:
once, until stopped, or a counted number of times.

* `RunState`: the state of the sequencer.
* `RunMode`: how a running sequencer runs.
-/

namespace PulseSequencer

/-- The state of the sequencer. -/
inductive RunState where
  | idle
  | programmed
  | runningSingle
  | runningInfinite
  | runningCounted (repetitions : UInt16)
  deriving DecidableEq, Repr, Inhabited

/-- How the sequencer is running, if it is. -/
inductive RunMode where
  | none
  | single
  | infinite
  | counted (repetitions : UInt16)
  deriving DecidableEq, Repr, Inhabited

namespace RunState

/-- Whether the sequencer was started and has not been seen to end. -/
def isRunning : RunState → Bool
  | idle | programmed => false
  | runningSingle | runningInfinite | runningCounted _ => true

/-- The way of running that belongs to a state. -/
def mode : RunState → RunMode
  | idle | programmed => .none
  | runningSingle => .single
  | runningInfinite => .infinite
  | runningCounted n => .counted n

/-- The name of a state, as error texts give it. -/
def name : RunState → String
  | idle => "Idle"
  | programmed => "Programmed"
  | runningSingle => "RunningSingle"
  | runningInfinite => "RunningInfinite"
  | runningCounted n => "RunningCounted(" ++ toString n.toNat ++ ")"

end RunState

namespace RunMode

/-- The name of a way of running. -/
def name : RunMode → String
  | none => "None"
  | single => "Single"
  | infinite => "Infinite"
  | counted n => "Counted(" ++ toString n.toNat ++ ")"

end RunMode

end PulseSequencer
