import PulseSequencer.Toml.Number

/-!
# TOML documents

A document is a sequence of lines: keys with values, headers of tables, comments. A header leads to
the table that the following lines add to.

* `Toml.value`: a value, with so many levels of nesting allowed.
* `Toml.Line`, `Toml.line`: a line of a document.
* `Toml.parse`: the table of a document.
-/

namespace PulseSequencer.Toml

/-- The number of levels to which arrays and tables in braces may be nested. -/
def nestingLimit : Nat := 79

/-- The values of an array after its opening bracket. -/
def arrayItems (item : Scan Value) : Nat → Scan (List Value)
  | 0, _ => none
  | fuel + 1, s =>
    let s := skipSpace s
    match expect ']' s with
    | some rest => some ([], rest)
    | none => do
      let (v, rest) ← item s
      let rest := skipSpace rest
      match expect ',' rest with
      | some rest => do
        let (vs, rest) ← arrayItems item fuel rest
        return (v :: vs, rest)
      | none => do
        let rest ← expect ']' rest
        return ([v], rest)

/-- A key, its value and the blanks after it. -/
def keyValue (item : Scan Value) (s : List Char) :
    Option (((List String × String) × Value) × List Char) := do
  let (k, rest) ← key s
  let rest ← expect '=' rest
  let (v, rest) ← item (skipBlanks rest)
  return ((k, v), skipBlanks rest)

/-- The entries of a table in braces, after the ones that were already read. No comma follows the
last one. -/
def inlineEntries (item : Scan Value) : Nat → Entries → Scan Entries
  | 0, _, _ => none
  | fuel + 1, es, s => do
    let (((path, k), v), rest) ← keyValue item s
    let es ← es.insert path k v
    match expect ',' rest with
    | some rest => inlineEntries item fuel es rest
    | none => return (es, ← expect '}' rest)

/-- A table in braces after its opening brace. -/
def inlineTable (item : Scan Value) (s : List Char) : Option (Entries × List Char) :=
  match expect '}' (skipBlanks s) with
  | some rest => some ([], rest)
  | none => inlineEntries item s.length [] s

/-- A value whose arrays and tables in braces are nested to at most so many levels. -/
def value : Nat → Scan Value
  | _, [] => none
  | depth, c :: rest =>
    if c = quote ∨ c = apostrophe then (string (c :: rest)).map fun (t, r) => (.text t, r)
    else if c = '[' then
      match depth with
      | 0 => none
      | depth + 1 =>
        (arrayItems (value depth) (rest.length + 1) rest).map fun (vs, r) => (.array vs, r)
    else if c = '{' then
      match depth with
      | 0 => none
      | depth + 1 => (inlineTable (value depth) rest).map fun (es, r) => (.table .inline es, r)
    else if c = 't' then
      (expectWord ['t', 'r', 'u', 'e'] (c :: rest)).map fun r => (.boolean true, r)
    else if c = 'f' then
      (expectWord ['f', 'a', 'l', 's', 'e'] (c :: rest)).map fun r => (.boolean false, r)
    else if c = 'i' ∨ c = 'n' then (specialFloat (c :: rest)).map fun (x, r) => (.float x, r)
    else numeric (c :: rest)

/-- What a line of a document says. -/
inductive Line where
  | blank
  | entry (path : List String) (key : String) (value : Value)
  /-- The header of a table. -/
  | header (path : List String) (key : String)
  /-- The header of one of several tables. -/
  | repeated (path : List String) (key : String)

/-- A header after its opening brackets, up to its closing ones. -/
def headerKey (brackets : Nat) (s : List Char) : Option ((List String × String) × List Char) := do
  let (k, rest) ← key s
  let rest ← expectWord (List.replicate brackets ']') rest
  return (k, rest)

/-- A line of a document and the end of the line. -/
def line (s : List Char) : Option (Line × List Char) :=
  match skipBlanks s with
  | '[' :: '[' :: rest => do
    let ((path, k), rest) ← headerKey 2 rest
    return (.repeated path k, ← lineEnd? rest)
  | '[' :: rest => do
    let ((path, k), rest) ← headerKey 1 rest
    return (.header path k, ← lineEnd? rest)
  | t =>
    match lineEnd? t with
    | some rest => some (.blank, rest)
    | none => do
      let (((path, k), v), rest) ← keyValue (value nestingLimit) t
      return (.entry path k v, ← lineEnd? rest)

/-- Opens the table of a header. A table that so far was only implied becomes that of the header. -/
def openTable (path : List String) (key : String) (es : Entries) : Option Entries :=
  es.edit false
    (fun _ inner => inner.alter (fun
      | none => some (.table .header [])
      | some (.table .implied old) => some (.table .header old)
      | some _ => none) key)
    path .header

/-- Adds a table to those of a repeated header. -/
def addTable (path : List String) (key : String) (es : Entries) : Option Entries :=
  es.edit false
    (fun _ inner => inner.alter (fun
      | none => some (.tables [[]])
      | some (.tables elements) => some (.tables (elements ++ [[]]))
      | some _ => none) key)
    path .header

/-- Adds an entry to the table that the last header led to. -/
def addEntry (current path : List String) (key : String) (v : Value) (es : Entries) :
    Option Entries :=
  es.edit false (fun _ inner => inner.insert path key v) current .header

/-- Adds the lines of a text to a document whose last header led to the table `current`. -/
def addLines : Nat → (current : List String) → Entries → List Char → Option Entries
  | _, _, es, [] => some es
  | 0, _, _, _ => none
  | fuel + 1, current, es, s => do
    let (l, rest) ← line s
    match l with
    | .blank => addLines fuel current es rest
    | .entry path k v => addLines fuel current (← addEntry current path k v es) rest
    | .header path k => addLines fuel (path ++ [k]) (← openTable path k es) rest
    | .repeated path k => addLines fuel (path ++ [k]) (← addTable path k es) rest

/-- The table of a document. A byte order mark before it does not count. -/
def parse (text : String) : Option Entries :=
  let s := match text.toList with
    | '\uFEFF' :: rest => rest
    | s => s
  addLines (s.length + 1) [] [] s

end PulseSequencer.Toml
