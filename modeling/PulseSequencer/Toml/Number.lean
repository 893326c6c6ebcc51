import PulseSequencer.Number.Decimal
import PulseSequencer.Toml.Value
import PulseSequencer.Toml.Text

/-!
# TOML numbers, dates and times

Integers are signed and have 64 bits; they may be written in base 16, 8 or 2 without a sign. Floats
have a fraction or an exponent. Digits may be grouped by single underscores. Dates and times are
checked against the calendar.

* `Toml.integer`, `Toml.float`: the two kinds of numbers.
* `Toml.moment`: dates and times.
* `Toml.numeric`: whatever begins with a digit or a sign.
-/

namespace PulseSequencer.Toml

/-- Digits grouped by underscores, each of them between two digits. -/
def digitGroups (isDigit : Char → Bool) : List Char → List Char × List Char
  | '_' :: c :: rest =>
    if isDigit c then
      let (ds, r) := digitGroups isDigit rest
      (c :: ds, r)
    else ([], '_' :: c :: rest)
  | c :: rest =>
    if isDigit c then
      let (ds, r) := digitGroups isDigit rest
      (c :: ds, r)
    else ([], c :: rest)
  | [] => ([], [])

/-- At least one digit, with more of them grouped by underscores. -/
def digits (isDigit : Char → Bool) : Scan (List Char)
  | [] => none
  | c :: rest =>
    if isDigit c then
      let (ds, r) := digitGroups isDigit rest
      some (c :: ds, r)
    else none

/-- A sign, if there is one; true for a minus. -/
def sign : List Char → Bool × List Char
  | '-' :: rest => (true, rest)
  | '+' :: rest => (false, rest)
  | s => (false, s)

/-- Decimal digits without a zero before others. -/
def wholeDigits : Scan (List Char)
  | '0' :: rest => some (['0'], rest)
  | s => digits Char.isDigit s

/-- The first integer that is too great, `2 ^ 63`. -/
def integerLimit : Nat := 9223372036854775808

/-- A number of a base that is not too great. -/
def based (base : Nat) (isDigit : Char → Bool) (s : List Char) : Option (Int × List Char) := do
  let (ds, rest) ← digits isDigit s
  let n := digitsValue base ds
  if n < integerLimit then some (n, rest) else none

/-- An integer. -/
def integer : Scan Int
  | '0' :: 'x' :: rest => based 16 isHexDigit rest
  | '0' :: 'o' :: rest => based 8 (fun c => '0' ≤ c && c ≤ '7') rest
  | '0' :: 'b' :: rest => based 2 (fun c => c = '0' || c = '1') rest
  | s => do
    let (negative, rest) := sign s
    let (ds, rest) ← wholeDigits rest
    let n := digitsValue 10 ds
    if n < integerLimit then some (if negative then -n else n, rest)
    else if negative ∧ n = integerLimit then some (-n, rest)
    else none

/-- The text after a word that has to be there. -/
def expectWord (word s : List Char) : Option (List Char) :=
  if word.isPrefixOf s then some (s.drop word.length) else none

/-- An infinity or a NaN, with its sign. -/
def specialFloat (s : List Char) : Option (Float × List Char) :=
  let (negative, rest) := sign s
  let signed (x : Float) : Float := if negative then -x else x
  match expectWord ['i', 'n', 'f'] rest with
  | some rest => some (signed (1.0 / 0.0), rest)
  | none => (expectWord ['n', 'a', 'n'] rest).map fun rest => (signed (0.0 / 0.0), rest)

/-- The digits after a point, if there is one. -/
def fraction : Scan (Option (List Char))
  | '.' :: rest => (digits Char.isDigit rest).map fun (ds, r) => (some ds, r)
  | s => some (none, s)

/-- The power of ten after the letter for it, if there is one. -/
def exponent : Scan (Option Int)
  | c :: rest =>
    if c = 'e' ∨ c = 'E' then do
      let (negative, rest) := sign rest
      let (ds, rest) ← digits Char.isDigit rest
      let n : Int := digitsValue 10 ds
      return (some (if negative then -n else n), rest)
    else some (none, c :: rest)
  | [] => some (none, [])

/-- A float with a fraction, an exponent or both. It may not be too great, but it may be too far
below zero, and is negative infinity then. -/
def decimalFloat (s : List Char) : Option (Float × List Char) := do
  let (negative, rest) := sign s
  let (whole, rest) ← wholeDigits rest
  let (places, rest) ← fraction rest
  let (power, rest) ← exponent rest
  if places.isNone ∧ power.isNone then none
  else
    let places := places.getD []
    let x := Decimal.toFloat
      ⟨negative, digitsValue 10 (whole ++ places), power.getD 0 - places.length⟩
    if x == 1.0 / 0.0 then none else some (x, rest)

/-- A float. -/
def float (s : List Char) : Option (Float × List Char) :=
  match decimalFloat s with
  | some found => some found
  | none => specialFloat s

/-- A number of exactly so many digits within bounds. -/
def fixedDigits (count low high : Nat) : Scan Nat := fun s =>
  let ds := s.take count
  let n := digitsValue 10 ds
  if ds.length = count ∧ ds.all Char.isDigit ∧ low ≤ n ∧ n ≤ high then some (n, s.drop count)
  else none

/-- The number of days of a month. -/
def daysOfMonth (year month : Nat) : Nat :=
  if month = 2 then
    if year % 4 = 0 ∧ (year % 100 ≠ 0 ∨ year % 400 = 0) then 29 else 28
  else if month = 4 ∨ month = 6 ∨ month = 9 ∨ month = 11 then 30
  else 31

/-- The text after a date of the calendar. -/
def date? (s : List Char) : Option (List Char) := do
  let (year, s) ← fixedDigits 4 0 9999 s
  let (month, s) ← fixedDigits 2 1 12 (← expect '-' s)
  let (_, s) ← fixedDigits 2 1 (daysOfMonth year month) (← expect '-' s)
  return s

/-- The text after a time of day. -/
def time? (s : List Char) : Option (List Char) := do
  let (_, s) ← fixedDigits 2 0 23 s
  let (_, s) ← fixedDigits 2 0 59 (← expect ':' s)
  let (_, s) ← fixedDigits 2 0 60 (← expect ':' s)
  match expect '.' s with
  | none => return s
  | some rest =>
    let ds := rest.takeWhile Char.isDigit
    if ds.isEmpty then none else return rest.drop ds.length

/-- The text after an offset from universal time, if there is one. -/
def offset? : List Char → Option (List Char)
  | [] => some []
  | c :: rest =>
    if c = 'Z' ∨ c = 'z' then some rest
    else if c = '+' ∨ c = '-' then do
      let (_, s) ← fixedDigits 2 0 23 rest
      let (_, s) ← fixedDigits 2 0 59 (← expect ':' s)
      return s
    else some (c :: rest)

/-- The text after the time that may follow a date. -/
def timeAfterDate? : List Char → Option (List Char)
  | [] => none
  | c :: rest =>
    if c = 'T' ∨ c = 't' ∨ c = ' ' then do
      let s ← time? rest
      offset? s
    else none

/-- The text after a date, a time or both. -/
def moment? (s : List Char) : Option (List Char) :=
  match date? s with
  | some rest => some ((timeAfterDate? rest).getD rest)
  | none => time? s

/-- Whatever begins with a digit or a sign: a date or time, else a float, else an integer. -/
def numeric (s : List Char) : Option (Value × List Char) :=
  match moment? s with
  | some rest => some (.moment, rest)
  | none =>
    match float s with
    | some (x, rest) => some (.float x, rest)
    | none => (integer s).map fun (n, rest) => (.integer n, rest)

end PulseSequencer.Toml
