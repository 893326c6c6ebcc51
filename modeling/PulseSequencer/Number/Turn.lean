import PulseSequencer.Number.Double

/-!
# Angles within one turn

A phase in degrees is reduced to one turn before it is scaled. The remainder of a double by 360 is
itself a double, so it is taken exactly, on significands.

* `Turn.remainder`: the remainder by 360, with the sign of the angle.
* `Turn.reduce`: the angle in `[0, 360]`; a negative remainder is raised by one turn.
-/

namespace PulseSequencer

namespace Turn

/-- Degrees in one turn. -/
def degrees : Float := 360.0

/-- The remainder by 360 of the magnitude of a double that is at least 360. -/
def magnitude (d : Double) : Float :=
  if 0 ≤ d.exponent then Float.ofNat ((d.significand <<< d.exponent.natAbs) % 360)
  else
    let grid := 1 <<< d.exponent.natAbs
    Float.ofNat (d.significand % (360 * grid)) / Float.ofNat grid

/-- The exact remainder of an angle by 360, with the sign of the angle. -/
def remainder (x : Float) : Float :=
  if x.abs < degrees then x
  else match Double.ofFloat? x with
    | none => 0.0 / 0.0
    | some d => if d.negative then -magnitude d else magnitude d

/-- The angle reduced to one turn. -/
def reduce (x : Float) : Float :=
  let r := remainder x
  if r < 0.0 then r + degrees else r

end Turn

end PulseSequencer
