/-!
# Words and bytes on the pipes

The board computes on 32-bit words; its pipes carry bytes. A pipe ships the high 16-bit half of a
word first, and the low byte of each half first. Count records are the exception: their four bytes
form a little-endian word.

* `Word.toPipe`, `Word.ofPipe`: a word in pipe order and back.
* `Word.toLittle`, `Word.ofLittle`: a word in little-endian order and back.
* `Word.readAll`: the words of a run of bytes, an incomplete last word left out.
* `Word.count`: the number of words.
* `Word.assign`: a word with one bit set to a given level.
-/

namespace PulseSequencer

/-- A byte on a pipe. -/
abbrev Byte := UInt8

/-- A 32-bit word of the board. -/
abbrev Word := BitVec 32

namespace Word

/-- The number of words, `2 ^ 32`. -/
def count : Nat := 4294967296

/-- Bits `8 k` to `8 k + 7` of a word. -/
def byte (w : Word) (k : Nat) : Byte := ⟨w.extractLsb' (8 * k) 8⟩

/-- The word of four bytes, the most significant one first. -/
def ofBytes (a b c d : Byte) : Word := a.toBitVec ++ b.toBitVec ++ c.toBitVec ++ d.toBitVec

/-- The bytes of a word in pipe order. -/
def toPipe (w : Word) : List Byte := [w.byte 2, w.byte 3, w.byte 0, w.byte 1]

/-- The word of four bytes in pipe order. -/
def ofPipe (a b c d : Byte) : Word := ofBytes b a d c

/-- The word that a run of bytes in pipe order begins with, if there are enough of them. -/
def ofPipe? : List Byte → Option Word
  | a :: b :: c :: d :: _ => some (ofPipe a b c d)
  | _ => none

/-- The bytes of a word, the least significant one first. -/
def toLittle (w : Word) : List Byte := [w.byte 0, w.byte 1, w.byte 2, w.byte 3]

/-- The word of four bytes, the least significant one first. -/
def ofLittle (a b c d : Byte) : Word := ofBytes d c b a

/-- The words of a run of bytes, four bytes each. Up to three bytes at the end are left out. -/
def readAll {α : Type} (read : Byte → Byte → Byte → Byte → α) : List Byte → List α
  | a :: b :: c :: d :: rest => read a b c d :: readAll read rest
  | _ => []

/-- A word with bit `i` set to the level `b` and every other bit kept. -/
def assign (w : Word) (i : Nat) (b : Bool) : Word :=
  if b then w ||| BitVec.twoPow 32 i else w &&& ~~~BitVec.twoPow 32 i

/-- The bits of `value` where `mask` is set, those of `w` elsewhere. -/
def masked (w value mask : Word) : Word := (w &&& ~~~mask) ||| (value &&& mask)

/-- The word with every bit set. -/
def all : Word := BitVec.allOnes 32

end Word

end PulseSequencer
