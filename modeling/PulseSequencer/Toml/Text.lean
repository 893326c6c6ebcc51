/-!
# TOML text

Blanks, comments, keys and strings. A scanner takes what it reads off the front of the text and
answers the rest; it answers nothing if the text is not in order.

* `Toml.Scan`: scanners.
* `Toml.skipBlanks`, `Toml.newline?`, `Toml.lineEnd?`, `Toml.skipSpace`: what stands between tokens.
* `Toml.string`: the four forms of a string.
* `Toml.key`: bare, quoted and dotted keys.
-/

namespace PulseSequencer.Toml

/-- Reads something off the front of a text. -/
abbrev Scan (α : Type) := List Char → Option (α × List Char)

/-- The character that begins and ends basic strings. -/
def quote : Char := '\x22'

/-- The character that begins and ends literal strings. -/
def apostrophe : Char := '\x27'

/-- The character that begins an escape. -/
def backslash : Char := '\x5c'

/-- A blank within a line. -/
def isBlank (c : Char) : Bool := c = ' ' || c = '\t'

/-- A character of a comment: a tab, or any but the control characters. -/
def isCommentChar (c : Char) : Bool := c = '\t' || (0x20 ≤ c.toNat && c.toNat ≠ 0x7f)

/-- A character that stands for itself in a basic string. -/
def isBasicChar (c : Char) : Bool := isCommentChar c && c ≠ quote && c ≠ backslash

/-- A character of a literal string. -/
def isLiteralChar (c : Char) : Bool := isCommentChar c && c ≠ apostrophe

/-- A character of a bare key. -/
def isBareKeyChar (c : Char) : Bool := c.isAlphanum || c = '_' || c = '-'

/-- A hexadecimal digit. -/
def isHexDigit (c : Char) : Bool := c.isDigit || ('a' ≤ c && c ≤ 'f') || ('A' ≤ c && c ≤ 'F')

/-- The text after blanks. -/
def skipBlanks (s : List Char) : List Char := s.dropWhile isBlank

/-- The text after one character that has to be there. -/
def expect (c : Char) : List Char → Option (List Char)
  | [] => none
  | d :: rest => if c = d then some rest else none

/-- The text after an end of line, a line feed or a carriage return with a line feed. -/
def newline? : List Char → Option (List Char)
  | '\n' :: rest => some rest
  | '\r' :: '\n' :: rest => some rest
  | _ => none

/-- The text after a comment, if there is one. -/
def skipComment : List Char → List Char
  | '#' :: rest => rest.dropWhile isCommentChar
  | s => s

/-- The text after the end of a line or at the end of the document. -/
def atLineEnd? (s : List Char) : Option (List Char) := if s.isEmpty then some [] else newline? s

/-- The text after the rest of a line on which only a comment may still stand. -/
def lineEnd? (s : List Char) : Option (List Char) := atLineEnd? (skipComment (skipBlanks s))

/-- The text after blanks, ends of lines and comments. -/
def skipSpaceWithin : Nat → List Char → List Char
  | 0, s => s
  | fuel + 1, s =>
    match skipBlanks s with
    | '#' :: rest => skipSpaceWithin fuel (rest.dropWhile isCommentChar)
    | t =>
      match newline? t with
      | some rest => skipSpaceWithin fuel rest
      | none => t

/-- The text after blanks, ends of lines and comments. -/
def skipSpace (s : List Char) : List Char := skipSpaceWithin (s.length + 1) s

/-- The text after blanks and ends of lines. -/
def skipLines : Nat → List Char → List Char
  | 0, s => s
  | fuel + 1, s =>
    let t := skipBlanks s
    match newline? t with
    | some rest => skipLines fuel rest
    | none => t

/-- A character given by so many hexadecimal digits, if it is one. -/
def codePoint (digits : Nat) : Scan Char := fun s =>
  let ds := s.take digits
  if ds.length = digits ∧ ds.all isHexDigit then
    let n := ds.foldl (fun n c =>
      n * 16 + (if c.isDigit then c.toNat - 48 else c.toLower.toNat - 87)) 0
    if n.isValidChar then some (Char.ofNat n, s.drop digits) else none
  else none

/-- The character that the text after a backslash stands for. -/
def escape : Scan Char
  | [] => none
  | c :: rest =>
    if c = 'b' then some ('\x08', rest)
    else if c = 't' then some ('\t', rest)
    else if c = 'n' then some ('\n', rest)
    else if c = 'f' then some ('\x0c', rest)
    else if c = 'r' then some ('\r', rest)
    else if c = quote ∨ c = backslash then some (c, rest)
    else if c = 'u' then codePoint 4 rest
    else if c = 'U' then codePoint 8 rest
    else none

/-- The text with characters put before what a scanner reads. -/
def prepend (cs : List Char) : Option (List Char × List Char) → Option (List Char × List Char) :=
  Option.map fun (text, rest) => (cs ++ text, rest)

/-- The rest of a basic string after its first quote. -/
def basicBody : Nat → Scan (List Char)
  | 0, _ => none
  | _, [] => none
  | fuel + 1, c :: rest =>
    if c = quote then some ([], rest)
    else if c = backslash then do
      let (d, rest) ← escape rest
      prepend [d] (basicBody fuel rest)
    else if isBasicChar c then prepend [c] (basicBody fuel rest)
    else none

/-- The rest of a literal string after its first apostrophe. -/
def literalBody (s : List Char) : Option (List Char × List Char) := do
  let rest ← expect apostrophe (s.dropWhile isLiteralChar)
  return (s.takeWhile isLiteralChar, rest)

/-- What a run of delimiters in a string of several lines means: one or two stand for themselves
(left), and three to five end the string after none to two that do (right). -/
def delimiterRun (length : Nat) : Option (Nat ⊕ Nat) :=
  if length < 3 then some (.inl length) else if length ≤ 5 then some (.inr (length - 3)) else none

/-- The rest of a string of several lines after its opening delimiter. -/
def linesBody (delimiter : Char) (escapes : Bool) : Nat → Scan (List Char)
  | 0, _ => none
  | _, [] => none
  | fuel + 1, c :: rest =>
    let s := c :: rest
    if c = delimiter then do
      let run := s.takeWhile (· = delimiter)
      let after := s.drop run.length
      match ← delimiterRun run.length with
      | .inl _ => prepend run (linesBody delimiter escapes fuel after)
      | .inr n => some (List.replicate n delimiter, after)
    else if escapes ∧ c = backslash then
      match newline? (skipBlanks rest) with
      | some after => linesBody delimiter escapes fuel (skipLines after.length after)
      | none => do
        let (d, rest) ← escape rest
        prepend [d] (linesBody delimiter escapes fuel rest)
    else
      match newline? s with
      | some after => prepend ['\n'] (linesBody delimiter escapes fuel after)
      | none =>
        if isCommentChar c then prepend [c] (linesBody delimiter escapes fuel rest) else none

/-- The rest of a string of several lines; an end of line right after the opening delimiter does not
count. -/
def lines (delimiter : Char) (escapes : Bool) (s : List Char) : Option (List Char × List Char) :=
  let s := (newline? s).getD s
  linesBody delimiter escapes (s.length + 1) s

/-- The rest of a text after three equal characters. -/
def triple? (c : Char) (s : List Char) : Option (List Char) := do
  expect c (← expect c (← expect c s))

/-- A basic or literal string on one line. -/
def lineString (s : List Char) : Option (String × List Char) :=
  match s with
  | [] => none
  | c :: rest =>
    if c = quote then (basicBody (s.length + 1) rest).map fun (t, r) => (String.ofList t, r)
    else if c = apostrophe then (literalBody rest).map fun (t, r) => (String.ofList t, r)
    else none

/-- A string in any of its forms. -/
def string (s : List Char) : Option (String × List Char) :=
  match triple? quote s with
  | some rest => (lines quote true rest).map fun (t, r) => (String.ofList t, r)
  | none =>
    match triple? apostrophe s with
    | some rest => (lines apostrophe false rest).map fun (t, r) => (String.ofList t, r)
    | none => lineString s

/-- A key without dots. -/
def simpleKey (s : List Char) : Option (String × List Char) :=
  match lineString s with
  | some found => some found
  | none =>
    let name := s.takeWhile isBareKeyChar
    if name.isEmpty then none else some (String.ofList name, s.drop name.length)

/-- The greatest number of parts of a dotted key. -/
def keyLimit : Nat := 79

/-- The parts of a dotted key, at most as many as allowed, with blanks around each. -/
def keyParts : Nat → Scan (List String)
  | 0, _ => none
  | allowed + 1, s => do
    let (part, rest) ← simpleKey (skipBlanks s)
    let rest := skipBlanks rest
    match expect '.' rest with
    | some rest =>
      let (parts, rest) ← keyParts allowed rest
      return (part :: parts, rest)
    | none => return ([part], rest)

/-- A key with its blanks: the parts before its last one, and the last one. -/
def key (s : List Char) : Option ((List String × String) × List Char) := do
  let (parts, rest) ← keyParts keyLimit s
  return ((parts.dropLast, ← parts.getLast?), rest)

end PulseSequencer.Toml
