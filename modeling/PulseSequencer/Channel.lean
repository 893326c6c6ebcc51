import PulseSequencer.Line

/-!
# TTL channels

A channel is a named TTL line with the way it is driven at power-on.

* `Channel`: the configured entry of a line.
-/

namespace PulseSequencer

/-- A named TTL line. -/
structure Channel where
  name : String
  /-- The line of the board. -/
  index : UInt8
  /-- How the line is driven at power-on. -/
  initial : LineState
  deriving DecidableEq, Repr, Inhabited

namespace Channel

/-- A channel driven by the sequencer. -/
def auto (name : String) (index : UInt8) : Channel := ⟨name, index, .auto⟩

/-- A channel held at a level. -/
def held (name : String) (index : UInt8) (level : Bool) : Channel := ⟨name, index, .held level⟩

end Channel

end PulseSequencer
