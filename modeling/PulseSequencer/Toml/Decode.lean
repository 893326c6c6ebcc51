import PulseSequencer.Toml.Value

/-!
# Reading typed values out of TOML

A decoder turns a value into one of a type, or refuses it. A record may be written as a table, whose
unknown keys do not count, or as an array of its fields in their order, in which fields at the end
may be left out; elements beyond the fields do not count.

* `Toml.Decode`: decoders.
* `Toml.text`, `Toml.boolean`, `Toml.double`, `Toml.word`, `Toml.pair`, `Toml.list`: the simple
  ones.
* `Toml.Fields`: the fields of a record, with `Toml.Fields.required` and `Toml.Fields.optional`.
* `Toml.choice`: one of several named alternatives.
-/

namespace PulseSequencer.Toml

/-- Turns a value into one of a type, or refuses it. -/
abbrev Decode (α : Type) := Value → Option α

/-- A string. -/
def text : Decode String
  | .text s => some s
  | _ => none

/-- A truth value. -/
def boolean : Decode Bool
  | .boolean b => some b
  | _ => none

/-- A double; an integer is taken as the nearest one. -/
def double : Decode Float
  | .float x => some x
  | .integer n => some (if n < 0 then -Float.ofNat n.natAbs else Float.ofNat n.natAbs)
  | _ => none

/-- An integer from 0 up to a limit that is left out. -/
def below (limit : Nat) : Decode Nat
  | .integer n => if 0 ≤ n ∧ n < limit then some n.natAbs else none
  | _ => none

/-- An integer of 8 bits. -/
def byte (v : Value) : Option UInt8 := UInt8.ofNat <$> below UInt8.size v

/-- An integer of 64 bits. -/
def word (v : Value) : Option UInt64 := UInt64.ofNat <$> below UInt64.size v

/-- The elements of an array, or the tables of a repeated header. -/
def elements : Decode (List Value)
  | .array vs => some vs
  | .tables es => some (es.map (.table .header))
  | _ => none

/-- A list of values of one type. -/
def list {α : Type} (item : Decode α) (v : Value) : Option (List α) := do
  (← elements v).mapM item

/-- The first two elements of an array. -/
def pair {α : Type} (item : Decode α) (v : Value) : Option (α × α) := do
  match ← elements v with
  | a :: b :: _ => return (← item a, ← item b)
  | _ => none

/-- The fields of a record. -/
abbrev Fields := String → Option Value

/-- The fields of a record whose fields have these names in this order. A date or time has no field
of any record. -/
def fields (names : List String) : Decode Fields
  | .table _ es => some (Entries.find? es)
  | .moment => some fun _ => none
  | v => do
    let vs ← elements v
    return fun name => Entries.find? (names.zip vs) name

/-- A field that has to be there. -/
def Fields.required {α : Type} (f : Fields) (name : String) (item : Decode α) : Option α := do
  item (← f name)

/-- A field with a value for when it is not there. -/
def Fields.optional {α : Type} (f : Fields) (name : String) (item : Decode α) (default : α) :
    Option α :=
  match f name with
  | some v => item v
  | none => some default

/-- Whether a value holds nothing. -/
def isEmpty : Value → Bool
  | .array [] | .table _ [] | .tables [] => true
  | _ => false

/-- A named alternative: its name, or a table with its name as the only key and an empty value. -/
def choice {α : Type} (alternatives : List (String × α)) : Decode α
  | .text s => alternatives.lookup s
  | .table _ [(s, v)] => if isEmpty v then alternatives.lookup s else none
  | _ => none

end PulseSequencer.Toml
