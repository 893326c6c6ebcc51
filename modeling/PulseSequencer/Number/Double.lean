/-!
# Doubles as significands and exponents

A finite double is a sign, a natural significand below `2 ^ 53` and a power of two. This file reads
these parts off the bits of a `Float`, so that the exact rules on doubles (shortest text, exact
remainder) are arithmetic on natural numbers.

* `Double`: the parts of a finite double.
* `Double.ofFloat?`: the parts, or nothing for a NaN or an infinity.
* `Double.Shape`: the four cases that a printer tells apart.
-/

namespace PulseSequencer

/-- The finite double `± significand · 2 ^ exponent`. -/
structure Double where
  negative : Bool
  significand : Nat
  exponent : Int
  deriving DecidableEq, Repr, Inhabited

namespace Double

/-- The leading bit of a normal significand, `2 ^ 52`. -/
def leadingBit : Nat := 4503599627370496

/-- The 52 bits below the exponent field. -/
def fraction (x : Float) : Nat := x.toBits.toNat % leadingBit

/-- The 11 bits of the exponent field: 0 for a subnormal number, 2047 for an infinity or a NaN. -/
def exponentField (x : Float) : Nat := x.toBits.toNat / leadingBit % 2048

/-- The sign bit, which is set for `-0.0` as well. -/
def signBit (x : Float) : Bool := x.toBits.toNat / leadingBit / 2048 == 1

/-- The parts of a finite double. -/
def ofFloat? (x : Float) : Option Double :=
  let field := exponentField x
  if field = 2047 then none
  else if field = 0 then some ⟨signBit x, fraction x, -1074⟩
  else some ⟨signBit x, fraction x + leadingBit, (field : Int) - 1075⟩

/-- What a double is, as far as writing it is concerned. -/
inductive Shape where
  | nan
  | infinity (negative : Bool)
  | zero (negative : Bool)
  | finite (value : Double)
  deriving DecidableEq, Repr

/-- The shape of a double. -/
def shape (x : Float) : Shape :=
  match ofFloat? x with
  | none => if fraction x = 0 then .infinity (signBit x) else .nan
  | some d => if d.significand = 0 then .zero d.negative else .finite d

end Double

end PulseSequencer
