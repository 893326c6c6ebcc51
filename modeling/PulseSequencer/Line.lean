import PulseSequencer.Word
import PulseSequencer.Error

/-!
# TTL output lines

A line is driven by the sequencer, optionally inverted, or held at a fixed level, optionally
inverted. Two words hold this for all 32 lines: one bit of the manual word and one of the level word
per line, line 0 in the least significant place.

* `LineState`: how one line is driven.
* `LineState.levelBit`: the bit of a line in the level word.
* `LineRegister`: the manual and the level word.
* `LineTable`: the state of every configured line, and `LineTable.register`, its two words.
-/

namespace PulseSequencer

/-- How a line is driven. -/
structure LineState where
  /-- Held at a fixed level, rather than driven by the sequencer. -/
  manual : Bool
  /-- The fixed level. -/
  level : Bool
  /-- The fixed level is inverted at the output. -/
  manualInverted : Bool
  /-- The sequencer's level is inverted at the output. -/
  autoInverted : Bool
  deriving DecidableEq, Repr

instance : Inhabited LineState := ⟨⟨false, false, false, false⟩⟩

namespace LineState

/-- A line driven by the sequencer, not inverted. -/
def auto : LineState := ⟨false, false, false, false⟩

/-- A line held at a level. -/
def held (level : Bool) : LineState := { auto with manual := true, level }

/-- The bit of a line in the level word: its output level when it is held, its inversion when it is
driven by the sequencer. -/
def levelBit (s : LineState) : Bool :=
  if s.manual then s.level ^^ s.manualInverted else s.autoInverted

end LineState

/-- The number of lines that a word has room for. -/
def lineLimit : Nat := 32

/-- The manual and the level word of all lines. -/
structure LineRegister where
  manual : Word
  level : Word
  deriving DecidableEq, Repr

namespace LineRegister

/-- Every line driven by the sequencer and not inverted. -/
def empty : LineRegister := ⟨0, 0⟩

instance : Inhabited LineRegister := ⟨empty⟩

/-- The words with the bits of line `index` as its state says. -/
def set (r : LineRegister) (index : UInt8) (s : LineState) : Except Error LineRegister :=
  if index.toNat < lineLimit then
    .ok ⟨r.manual.assign index.toNat s.manual, r.level.assign index.toNat s.levelBit⟩
  else .error (.trap .outOfBounds)

end LineRegister

/-- The state of every configured line. -/
abbrev LineTable := UInt8 → Option LineState

namespace LineTable

/-- No line is configured. -/
def empty : LineTable := fun _ => none

/-- The table with the state of one line replaced. -/
def insert (t : LineTable) (index : UInt8) (s : LineState) : LineTable :=
  fun i => if i = index then some s else t i

/-- The words of a table: the bits of a line that is not configured are clear. -/
def register (t : LineTable) : Except Error LineRegister :=
  (List.range UInt8.size).foldlM
    (fun r i =>
      match t (UInt8.ofNat i) with
      | some s => r.set (UInt8.ofNat i) s
      | none => pure r)
    LineRegister.empty

end LineTable

end PulseSequencer
