import PulseSequencer.Error

/-!
# Times and ticks

All times are whole nanoseconds. The board counts in ticks of its time resolution: the edges of a
pulse are rounded down to a tick, the length of a sequence is rounded up.

* `Timing`: the resolution of a board and the longest sequence it can hold.
* `Timing.ticks`: a time in ticks, rounded down.
* `Timing.ceilTicks`: a time in ticks, rounded up. The sum it divides is formed in 128 bits.
-/

namespace PulseSequencer

/-- The timing constraints of a board, in nanoseconds. -/
structure Timing where
  /-- The smallest time that can be told apart. -/
  resolution : Nat
  /-- The longest sequence. -/
  maxLength : Nat
  deriving DecidableEq, Repr, Inhabited

namespace Timing

/-- The number of times that the arithmetic on nanoseconds tells apart, `2 ^ 128`. -/
def span : Nat := 340282366920938463463374607431768211456

/-- The tick that a time falls into; the resolution is not zero. -/
def ticks (t : Timing) (nanos : Nat) : Nat := nanos / t.resolution

/-- Rounding down keeps the order of times. -/
theorem ticks_mono (t : Timing) {a b : Nat} (h : a ≤ b) : t.ticks a ≤ t.ticks b :=
  Nat.div_le_div_right h

/-- The least number of ticks that covers a time; the resolution is not zero. -/
def cover (t : Timing) (nanos : Nat) : Nat := (nanos + t.resolution - 1) / t.resolution

/-- The least number of ticks that covers a time. There is none without a resolution, and the sum
that is divided has to fit its 128 bits. -/
def ceilTicks (t : Timing) (nanos : Nat) : Except Error Nat :=
  if t.resolution = 0 then .error (.trap .divisionByZero)
  else if span ≤ nanos + t.resolution then .error (.trap .overflow)
  else .ok (t.cover nanos)

/-- The tick that a time falls into, if there is a resolution. -/
def floorTicks (t : Timing) (nanos : Nat) : Except Error Nat :=
  if t.resolution = 0 then .error (.trap .divisionByZero) else .ok (t.ticks nanos)

end Timing

end PulseSequencer
