/-!
# TOML values

A TOML document is a table. Tables remember how they came about, because that decides whether
later lines of the document may add to them.

* `Toml.Origin`: how a table came about.
* `Toml.Value`: a value.
* `Toml.Entries.edit`: adds to the table at the end of a path of keys.
-/

namespace PulseSequencer.Toml

/-- How a table came about. -/
inductive Origin where
  /-- By a value in braces; it is complete. -/
  | inline
  /-- By its own header, or as the document. -/
  | header
  /-- By the header of a table further down. -/
  | implied
  /-- By a dotted key. -/
  | dotted
  deriving DecidableEq, Repr

/-- A TOML value. Of dates and times it is only kept that they are well-formed. -/
inductive Value where
  | text (s : String)
  | integer (n : Int)
  | float (x : Float)
  | boolean (b : Bool)
  | moment
  | array (values : List Value)
  | table (origin : Origin) (entries : List (String × Value))
  /-- The tables of one repeated header. -/
  | tables (elements : List (List (String × Value)))
  deriving Repr

/-- Keys with their values, in the order of the document. -/
abbrev Entries := List (String × Value)

namespace Entries

/-- The value of a key. -/
def find? (es : Entries) (key : String) : Option Value :=
  match List.find? (fun e => e.1 == key) es with
  | some (_, v) => some v
  | none => none

/-- The value of one key replaced by what `f` makes of it; a new key comes last. -/
def alter (f : Option Value → Option Value) (key : String) : Entries → Option Entries
  | [] => (fun v => [(key, v)]) <$> f none
  | (k, v) :: rest =>
    if k = key then (fun w => (k, w) :: rest) <$> f (some v)
    else ((k, v) :: ·) <$> alter f key rest

/-- Edits the table at the end of a path. Tables on the way that do not exist are made, by a dotted
key or by a header. The way may lead through the last table of a repeated header. A dotted key may
not lead into a table that has a header of its own, and nothing leads into a table in braces. -/
def edit (dotted : Bool) (f : Origin → Entries → Option Entries) :
    List String → Origin → Entries → Option Entries
  | [], origin, es => f origin es
  | key :: path, _, es =>
    alter (fun
      | none =>
        let origin := if dotted then .dotted else .implied
        .table origin <$> edit dotted f path origin []
      | some (.table .inline _) => none
      | some (.table .header inner) =>
        if dotted then none else .table .header <$> edit dotted f path .header inner
      | some (.table origin inner) => .table origin <$> edit dotted f path origin inner
      | some (.tables elements) =>
        match elements.getLast? with
        | none => none
        | some last =>
          (fun new => .tables (elements.dropLast ++ [new])) <$> edit dotted f path .header last
      | some _ => none) key es

/-- Adds a key with its value to the table that a dotted key leads to. A dotted key only adds to
tables that dotted keys made, and a plain key only to others. -/
def insert (path : List String) (key : String) (value : Value) (es : Entries) : Option Entries :=
  edit true
    (fun origin inner =>
      if decide (origin = .dotted) = path.isEmpty then none
      else alter (fun | none => some value | some _ => none) key inner)
    path .header es

end Entries

end PulseSequencer.Toml
