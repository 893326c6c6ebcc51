import PulseSequencer.Wire
import PulseSequencer.Dds
import PulseSequencer.Counting.Mode

/-!
# Photon counting

The board pushes one record per counting window into a pipe: a 31-bit count and the state of the
gating light. The host keeps the counting mode and the collection times, and turns counts into
rates.

* `Record`, `Record.ofBytes`: a record and its four bytes.
* `Sample`, `Sample.decode`: rates with the times at which they were taken;
  `Sample.getElem?_ofRecords` says which sample a record gives.
* `Counting`: mode, collection times and the range allowed for them.
* `Counting.apply`, `Counting.setMode`, `Counting.setNormalTime`, `Counting.drain`: the operations.
-/

namespace PulseSequencer

/-- The state of the gating light while a record was collected. -/
inductive Light where
  | on
  | off
  deriving DecidableEq, Repr, Inhabited

/-- The name of a state of the light. -/
def Light.name : Light → String
  | on => "On"
  | off => "Off"

/-- The count of one window. -/
structure Record where
  count : Word
  light : Light
  deriving DecidableEq, Repr, Inhabited

namespace Record

/-- The bytes of a record. -/
def size : Nat := 4

/-- The bit that is set while the light is off. -/
def offBit : Word := 0x80000000

/-- The record of a word: bit 31 is the light, the others are the count. -/
def ofWord (w : Word) : Record :=
  if w &&& offBit = 0 then ⟨w, .on⟩ else ⟨w &&& ~~~offBit, .off⟩

/-- The record of four bytes, the least significant one first. -/
def ofBytes (a b c d : Byte) : Record := ofWord (Word.ofLittle a b c d)

/-- The whole records of a run of bytes. -/
def readAll : List Byte → List Record := Word.readAll ofBytes

end Record

/-- A count over a number of seconds, in thousands per second. -/
def toKilohertz (count : Word) (seconds : Float) : Float :=
  Float.ofNat count.toNat / seconds / 1000.0

/-- The rate of one window. -/
structure Sample where
  /-- Thousands of counts per second. -/
  rate : Float
  light : Light
  /-- The time at which the window closed, in seconds. -/
  time : Float
  deriving Repr

/-- The samples of records that were collected back to back, the last one closed at `readTime`. -/
def Sample.ofRecords (records : List Record) (seconds readTime : Float) : List Sample :=
  let total := records.length
  records.mapIdx fun i r =>
    ⟨toKilohertz r.count seconds, r.light, readTime - Float.ofNat (total - 1 - i) * seconds⟩

/-- There is one sample for each record. -/
theorem Sample.length_ofRecords (records : List Record) (seconds readTime : Float) :
    (Sample.ofRecords records seconds readTime).length = records.length :=
  List.length_mapIdx

/-- The samples stand in the order of the records, and each one closed as many windows before
`readTime` as there are records behind it. -/
theorem Sample.getElem?_ofRecords (records : List Record) (seconds readTime : Float) (k : Nat) :
    (Sample.ofRecords records seconds readTime)[k]? = records[k]?.map fun r =>
      ⟨toKilohertz r.count seconds, r.light,
        readTime - Float.ofNat (records.length - 1 - k) * seconds⟩ :=
  List.getElem?_mapIdx

/-- The samples of the whole records in a run of bytes. -/
def Sample.decode (bytes : List Byte) (seconds readTime : Float) : List Sample :=
  Sample.ofRecords (Record.readAll bytes) seconds readTime

/-- The greatest multiple of the record size in a number of bytes. -/
def wholeRecords (bytes : Nat) : Nat := bytes / Record.size * Record.size

/-- A non-negative double rounded to the nearest word, halves upwards. Below zero it is 0, above the
greatest word it is that word. -/
def roundToWord (x : Float) : Word :=
  let whole := x.toUInt32
  if x - whole.toFloat ≥ 0.5 ∧ whole ≠ 0xffffffff then (whole + 1).toBitVec else whole.toBitVec

/-- The counting setup of a board. -/
structure Counting where
  mode : CollectionMode
  times : CollectionTimes
  /-- The allowed collection times. -/
  range : Span
  deriving Repr, Inhabited

/-- The counting field of the control wire for a mode. -/
def CollectionMode.bits : CollectionMode → Word
  | normal => 0
  | differential => Control.differential

namespace Counting

/-- The collection time of the current mode. -/
def collectionTime (c : Counting) : Float := c.times.get c.mode

/-- Accepts a collection time in the allowed range. -/
def checkTime (c : Counting) (seconds : Float) : Except Error Unit :=
  if c.range.contains seconds then .ok ()
  else .error (.outOfRange (.collectionTime seconds c.range.low c.range.high))

/-- The collection time of normal mode in milliseconds, as the board takes it. -/
def rateWord (c : Counting) : Word := roundToWord (c.times.normal * 1000.0)

/-- The setup with the collection time of a mode replaced. -/
def store (c : Counting) (seconds : Float) (mode : CollectionMode) : Except Error Counting := do
  c.checkTime seconds
  return { c with times := c.times.set mode seconds }

/-- Writes the mode and the collection time of normal mode to the board. -/
def apply : Action Counting Unit := do
  let c ← Action.state
  Wire.set Endpoint.control c.mode.bits Control.counting
  Wire.set Endpoint.countRate c.rateWord Word.all
  Wire.commit

/-- Clears the pipe of count records. -/
def resetFifo : Action Counting Unit := Wire.trigger Pulse.resetCounts

/-- Changes the mode and clears the pipe of count records. -/
def setMode (mode : CollectionMode) : Action Counting Unit := do
  Action.change ({ · with mode })
  apply
  resetFifo

/-- Changes the collection time of normal mode on the board. Records that were collected over the
old time are cleared. -/
def setNormalTime (seconds : Float) : Action Counting Unit := do
  let c ← Action.ofExcept ((← Action.state).store seconds .normal)
  Action.change fun _ => c
  resetFifo
  Wire.write Endpoint.countRate c.rateWord Word.all

/-- Reads every whole record that waits on the board. The board tells the number of 16-bit words,
and no more than that is asked for. -/
def drainRecords {σ : Type} : Action σ (List Record) := do
  let words ← Wire.readout .normalTotal
  let length := wholeRecords (words.toNat * 2)
  if length = 0 then return []
  else return Record.readAll (← Wire.readPipe Endpoint.counts length)

/-- Reads every whole record that waits on the board, as samples of the current collection time. -/
def drain (readTime : Float) : Action Counting (List Sample) := do
  let records ← drainRecords
  return Sample.ofRecords records (← Action.state).collectionTime readTime

end Counting

end PulseSequencer
