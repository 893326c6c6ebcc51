import PulseSequencer.Number.Double

/-!
# The shortest text of a double

A finite double is written with the fewest significant digits that read back to it, always in
positional notation. The decimals that read back to a double form an interval; its ends belong to it
exactly when the significand is even. On the decimal grid of each number of digits only the two
neighbours of the double have to be tried, and of two neighbours in the interval the nearer one is
written, the greater one on a tie.

* `Shortest.Interval`: a double and the ends of its interval over one common denominator.
* `Shortest.search`: the first decimal grid with a point in the interval.
* `Shortest.text`: the text of any double.
-/

namespace PulseSequencer

namespace Shortest

/-- A double `value / scale` with the interval of numbers that round to it. -/
structure Interval where
  low : Nat
  value : Nat
  high : Nat
  scale : Nat
  closed : Bool
  deriving Repr

/-- The rounding interval of a double, in quarters of its last place. Below a power of two the
doubles lie twice as close, so the lower end is only half as far away. -/
def Interval.ofDouble (d : Double) : Interval :=
  let value := 4 * d.significand
  let low := if d.significand = Double.leadingBit then value - 1 else value - 2
  let shift := (d.exponent - 2).natAbs
  if d.exponent < 2 then
    ⟨low, value, value + 2, 1 <<< shift, d.significand % 2 = 0⟩
  else
    ⟨low <<< shift, value <<< shift, (value + 2) <<< shift, 1, d.significand % 2 = 0⟩

/-- The interval measured in units of `10 ^ p`. -/
def Interval.inUnits (i : Interval) (p : Int) : Interval :=
  if p < 0 then
    let m := Nat.pow 10 p.natAbs
    { i with low := i.low * m, value := i.value * m, high := i.high * m }
  else { i with scale := i.scale * Nat.pow 10 p.natAbs }

/-- Whether the whole number `n` lies in the interval. -/
def Interval.contains (i : Interval) (n : Nat) : Bool :=
  let x := n * i.scale
  if i.closed then i.low ≤ x && x ≤ i.high else i.low < x && x < i.high

/-- The whole number of the interval nearest to its double, if it has one. -/
def Interval.nearest? (i : Interval) : Option Nat :=
  let below := i.value / i.scale
  let above := below + 1
  match i.contains below, i.contains above with
  | true, true =>
    if i.value - below * i.scale < above * i.scale - i.value then some below else some above
  | true, false => some below
  | false, true => some above
  | false, false => none

/-- The exponent `k` with `10 ^ k ≤ value / scale < 10 ^ (k + 1)`, looked for from `k` downwards. -/
def leading (i : Interval) : Nat → Int → Int
  | 0, k => k
  | fuel + 1, k =>
    let u := i.inUnits k
    if u.scale ≤ u.value then k else leading i fuel (k - 1)

/-- The first of the grids `10 ^ p`, `10 ^ (p - 1)`, … with a point in the interval, and the
point. -/
def search (i : Interval) : Nat → Int → Nat × Int
  | 0, p => ((i.inUnits p).value / (i.inUnits p).scale, p)
  | fuel + 1, p =>
    match (i.inUnits p).nearest? with
    | some n => (n, p)
    | none => search i fuel (p - 1)

/-- The decimal `n · 10 ^ p` with the fewest digits that reads back to a positive double. Seventeen
digits always suffice, and the greatest double is below `10 ^ 309`. -/
def decimal (d : Double) : Nat × Int :=
  let i := Interval.ofDouble d
  search i 17 (leading i 640 308)

/-- Digits without the zeros at the end, which count towards the power of ten instead. -/
def trimZeros : Nat → Nat → Int → Nat × Int
  | 0, n, p => (n, p)
  | fuel + 1, n, p => if n ≠ 0 ∧ n % 10 = 0 then trimZeros fuel (n / 10) (p + 1) else (n, p)

/-- `n · 10 ^ p` in positional notation, with no point after a whole number. -/
def positional (n : Nat) (p : Int) : String :=
  let digits := Nat.toDigits 10 n
  if 0 ≤ p then String.ofList (digits ++ List.replicate p.natAbs '0')
  else
    let places := p.natAbs
    let padded := List.replicate (places + 1 - digits.length) '0' ++ digits
    let whole := padded.length - places
    String.ofList (padded.take whole ++ '.' :: padded.drop whole)

/-- The text of a positive double. -/
def magnitude (d : Double) : String :=
  let (n, p) := decimal d
  let (n, p) := trimZeros 20 n p
  positional n p

/-- The text of a double: the shortest positional decimal that reads back, `-0` for the negative
zero, `NaN`, `inf` and `-inf`. -/
def text (x : Float) : String :=
  match Double.shape x with
  | .nan => "NaN"
  | .infinity negative => if negative then "-inf" else "inf"
  | .zero negative => if negative then "-0" else "0"
  | .finite d => if d.negative then "-" ++ magnitude d else magnitude d

end Shortest

end PulseSequencer
