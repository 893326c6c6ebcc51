import PulseSequencer.Registry
import PulseSequencer.Sequence.Transition

/-!
# Grid view of a sequence

The grid shows which channel is active when. Its rows are the TTL lines in the order of the board,
then the DDS channels; its columns are the intervals between consecutive ticks at which something
switches.

* `Grid`: column boundaries, row labels and cells.
* `Grid.ofSequence`: the grid of a sequence.
* `Grid.isActive`: the cell of a label and a time.
* `Grid.text`: the grid as a table.
-/

namespace PulseSequencer

/-- Column `j` covers the times from `times[j]` to just before `times[j + 1]`. -/
structure Grid where
  /-- The column boundaries in nanoseconds, one more than there are columns. -/
  times : List Nat
  labels : List String
  /-- The rows, each with one cell per column. -/
  cells : List (List Bool)
  deriving DecidableEq, Repr, Inhabited

namespace Grid

/-- A number put into its place in a strictly increasing list. -/
def insertTick (t : Nat) : List Nat → List Nat
  | [] => [t]
  | x :: xs => if t < x then t :: x :: xs else if t = x then x :: xs else x :: insertTick t xs

/-- The ticks at which a sequence begins, ends or switches, strictly increasing. -/
def boundaries (s : Sequence) (timing : Timing) (total : Nat) : List Nat :=
  (0 :: total :: s.events.flatMap fun e => [timing.ticks e.start, timing.ticks e.finish]).foldr
    insertTick []

/-- Whether an entry from `start` to `finish` covers a tick. -/
def covers (timing : Timing) (start finish tick : Nat) : Bool :=
  timing.ticks start ≤ tick && tick < timing.ticks finish

/-- Whether a pulse on a TTL line covers a tick. -/
def lineActive (s : Sequence) (timing : Timing) (line : UInt8) (tick : Nat) : Bool :=
  s.ttlPulses.any fun p => p.line == line && covers timing p.start p.finish tick

/-- Whether an event on a DDS channel covers a tick. -/
def ddsActive (s : Sequence) (timing : Timing) (channel : UInt8) (tick : Nat) : Bool :=
  s.ddsEvents.any fun e => e.channel == channel && covers timing e.start e.finish tick

/-- The grid of a sequence. -/
def ofSequence (s : Sequence) (registry : Registry) (timing : Timing) : Except Error Grid := do
  let total ← s.totalTicks timing
  let ticks := boundaries s timing total
  let columns := ticks.dropLast
  return {
    times := ticks.map (· * timing.resolution)
    labels := registry.channels.map (·.name) ++ registry.dds.map (·.name)
    cells :=
      registry.channels.map (fun c => columns.map (lineActive s timing c.index)) ++
      registry.dds.map (fun d => columns.map (ddsActive s timing d.index)) }

/-- The column of a time: the first interval between boundaries that holds it. -/
def column? (nanos : Nat) : List Nat → Option Nat
  | a :: b :: rest =>
    if a ≤ nanos ∧ nanos < b then some 0 else (column? nanos (b :: rest)).map (· + 1)
  | _ => none

/-- The cell in the first row of a label and the column of a time. -/
def isActive (g : Grid) (label : String) (nanos : Nat) : Option Bool := do
  let row ← g.labels.findIdx? (· == label)
  let column ← column? nanos g.times
  let cells ← g.cells[row]?
  cells[column]?

/-- A label filled up with blanks to a number of characters. -/
def pad (width : Nat) (label : String) : String :=
  label ++ String.ofList (List.replicate (width - label.length) ' ')

/-- One row of the table. -/
def row (width : Nat) (label : String) (cells : List String) : String :=
  pad width label ++ " |" ++ String.join (cells.map (" " ++ ·)) ++ "\n"

/-- The grid as a table: a heading with the beginnings of the columns, then a row per label. The
label column has as many characters as the longest label has bytes. -/
def text (g : Grid) : String :=
  let width := g.labels.foldl (fun n l => max n l.utf8ByteSize) 0
  let heading := row width "t (ns)" (g.times.dropLast.map toString)
  let rows := (g.labels.zip g.cells).map fun (label, cells) =>
    row width label (cells.map fun c => if c then "1" else "0")
  heading ++ String.join rows

end Grid

end PulseSequencer
