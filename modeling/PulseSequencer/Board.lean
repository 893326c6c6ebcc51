import PulseSequencer.Board.Control

/-!
# The board

A board keeps the words of its wires, the bytes of its pipes, the programs it was sent and a log of
every primitive operation. Words sent to a wire are staged and take effect together when they are
committed; wires out of the board show what the last latch put there.

* `setAt`: a function changed at one place.
* `Primitive`: the primitive operations, and `Primitive.Reply`, what each answers.
* `Board`: the state of a board.
* `Board.perform`: a primitive operation on a board that is plugged in.
-/

namespace PulseSequencer

/-- The function `f` with the value `x` at `i`. -/
def setAt {ι α : Type} [DecidableEq ι] (f : ι → α) (i : ι) (x : α) : ι → α :=
  fun j => if j = i then x else f j

/-- The place that was set has the new value. -/
@[simp] theorem setAt_same {ι α : Type} [DecidableEq ι] (f : ι → α) (i : ι) (x : α) :
    setAt f i x i = x := if_pos rfl

/-- All other places keep their values. -/
@[simp] theorem setAt_ne {ι α : Type} [DecidableEq ι] (f : ι → α) {i j : ι} (x : α) (h : j ≠ i) :
    setAt f i x j = f j := if_neg h

/-- A primitive operation on a board. -/
inductive Primitive where
  /-- Stages the bits of a wire that the mask selects. -/
  | setWire (address : Address) (value mask : Word)
  /-- Lets all staged words take effect. -/
  | commit
  /-- Takes the values that the wires out of the board show from now on. -/
  | latch
  | readWire (address : Address)
  | trigger (address : Address) (bit : UInt8)
  | writePipe (address : Address) (bytes : List Byte)
  | readPipe (address : Address) (length : Nat)
  deriving DecidableEq, Repr

/-- What a primitive operation answers. -/
@[reducible] def Primitive.Reply : Primitive → Type
  | readWire _ => Word
  | writePipe _ _ => Nat
  | readPipe _ _ => List Byte
  | setWire _ _ _ | commit | latch | trigger _ _ => Unit

/-- The state of a board. -/
structure Board where
  /-- Plugged in. -/
  present : Bool
  /-- Words sent to a wire and not yet committed. -/
  staged : Address → Option Word
  /-- The committed words. -/
  wires : Address → Word
  /-- What the wires out of the board show. -/
  latched : Address → Word
  /-- The sequencer has finished. -/
  done : Bool
  /-- The repetitions completed. -/
  repetitions : Word
  /-- The bytes that wait in each pipe. -/
  pipes : Address → List Byte
  /-- What was written to the pipes into the board. -/
  programs : List (List Byte)
  /-- The primitive operations carried out, in order. -/
  log : List Primitive

namespace Board

/-- A board fresh from power-on, plugged in. -/
def new : Board where
  present := true
  staged := fun _ => none
  wires := fun _ => 0
  latched := fun _ => 0
  done := false
  repetitions := 0
  pipes := fun _ => []
  programs := []
  log := []

instance : Inhabited Board := ⟨new⟩

/-- The board taken out of its slot; it keeps its state. -/
def unplug (b : Board) : Board := { b with present := false }

/-- The board put into its slot. -/
def plug (b : Board) : Board := { b with present := true }

/-- The board with its done flag set to a value. -/
def setDone (b : Board) (done : Bool) : Board := { b with done }

/-- The board with a number of repetitions completed. -/
def setRepetitions (b : Board) (repetitions : Word) : Board := { b with repetitions }

/-- The board with more bytes waiting in a pipe. -/
def pushPipe (b : Board) (address : Address) (bytes : List Byte) : Board :=
  { b with pipes := setAt b.pipes address (b.pipes address ++ bytes) }

/-- The board with more count records waiting. -/
def pushCounts (b : Board) (records : List Word) : Board :=
  b.pushPipe Endpoint.counts (records.flatMap Word.toLittle)

/-- The board with more time tags waiting, each an offset in ticks. -/
def pushTimetags (b : Board) (offsets : List Word) : Board :=
  b.pushPipe Endpoint.timetags (offsets.flatMap Word.toPipe)

/-- The board with an empty log. -/
def clearLog (b : Board) : Board := { b with log := [] }

/-- The bits of the triggers in the log, in order. -/
def triggers (b : Board) : List UInt8 :=
  b.log.filterMap fun
    | .trigger _ bit => some bit
    | _ => none

/-- The number of reads of a pipe in the log. -/
def pipeReads (b : Board) : Nat :=
  (b.log.filter fun
    | .readPipe _ _ => true
    | _ => false).length

/-- The word that a wire has or will have after a commit. -/
def pending (b : Board) (address : Address) : Word := (b.staged address).getD (b.wires address)

/-- Half the number of bytes that wait in a pipe, as a word. -/
def fillWord (b : Board) (address : Address) : Word :=
  BitVec.ofNat 32 ((b.pipes address).length / 2)

/-- The value that the readout wire takes at a latch. -/
def readoutValue (b : Board) : Word :=
  match Readout.ofCode? (b.wires Endpoint.control &&& Control.readout) with
  | some .done => if b.done then 1 else 0
  | some .repetitions => b.repetitions
  | some .normalTotal => b.fillWord Endpoint.counts
  | none => 0

/-- The board with a word staged where the mask selects. -/
def stage (b : Board) (address : Address) (value mask : Word) : Board :=
  { b with staged := setAt b.staged address (some ((b.pending address).masked value mask)) }

/-- The board with all staged words committed. -/
def commit (b : Board) : Board := { b with wires := b.pending, staged := fun _ => none }

/-- The board with the readout and the time-tag total latched. -/
def latch (b : Board) : Board :=
  { b with
    latched := setAt (setAt b.latched Endpoint.readout b.readoutValue)
      Endpoint.timetagTotal (b.fillWord Endpoint.timetags) }

/-- The board after a bit of the trigger: two of them clear a pipe. -/
def fire (b : Board) (bit : UInt8) : Board :=
  if bit = Pulse.resetCounts then { b with pipes := setAt b.pipes Endpoint.counts [] }
  else if bit = Pulse.resetTimetags then { b with pipes := setAt b.pipes Endpoint.timetags [] }
  else b

/-- The bytes that a read of a pipe gives: those that wait, then zeros. -/
def pipeBytes (b : Board) (address : Address) (length : Nat) : List Byte :=
  let bytes := (b.pipes address).take length
  bytes ++ List.replicate (length - bytes.length) 0

/-- What a primitive operation answers and does to a board, its entry in the log apart. -/
def perform : (p : Primitive) → Board → p.Reply × Board
  | .setWire address value mask, b => ((), b.stage address value mask)
  | .commit, b => ((), b.commit)
  | .latch, b => ((), b.latch)
  | .readWire address, b => (b.latched address, b)
  | .trigger _ bit, b => ((), b.fire bit)
  | .writePipe _ bytes, b => (bytes.length, { b with programs := b.programs ++ [bytes] })
  | .readPipe address length, b =>
    (b.pipeBytes address length,
      { b with pipes := setAt b.pipes address ((b.pipes address).drop length) })

/-- The board with an operation at the end of its log. -/
def record (b : Board) (p : Primitive) : Board := { b with log := b.log ++ [p] }

end Board

end PulseSequencer
