/-!
# Decimal numerals

A decimal numeral is a sign, a natural number made of its digits and a power of ten. Its value as a
double is the nearest one, ties going to the even significand.

* `Decimal`: the numeral `± digits · 10 ^ exponent`.
* `Decimal.toFloat`: the nearest double.
* `digitsValue`: the number that a list of digit characters spells.
-/

namespace PulseSequencer

/-- The value of a decimal digit, or of a letter digit in a base up to sixteen. -/
def digitValue (c : Char) : Nat :=
  if c.isDigit then c.toNat - '0'.toNat
  else if c.isLower then c.toNat - 'a'.toNat + 10
  else c.toNat - 'A'.toNat + 10

/-- The number that digit characters spell in a base. -/
def digitsValue (base : Nat) (cs : List Char) : Nat :=
  cs.foldl (fun n c => n * base + digitValue c) 0

/-- The numeral `± digits · 10 ^ exponent`. -/
structure Decimal where
  negative : Bool
  digits : Nat
  exponent : Int
  deriving DecidableEq, Repr, Inhabited

namespace Decimal

/-- The number of decimal digits of a natural number, at least one. -/
def width (n : Nat) : Nat := (Nat.toDigits 10 n).length

/-- The nearest double of the magnitude. Outside the exponents looked at first, every numeral is
beyond the greatest or below half of the least positive double. -/
def magnitude (d : Decimal) : Float :=
  if d.digits = 0 then 0.0
  else
    let top := (width d.digits : Int) + d.exponent
    if top > 310 then 1.0 / 0.0
    else if top < -330 then 0.0
    else if d.exponent < 0 then Float.ofScientific d.digits true d.exponent.natAbs
    else Float.ofScientific (d.digits * Nat.pow 10 d.exponent.natAbs) false 0

/-- The nearest double; a negative numeral of value zero is `-0.0`. -/
def toFloat (d : Decimal) : Float :=
  if d.negative then -d.magnitude else d.magnitude

end Decimal

end PulseSequencer
