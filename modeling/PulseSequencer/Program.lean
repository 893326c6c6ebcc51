import PulseSequencer.Word

/-!
# Programs of the sequencer

A program is a run of words. Its TTL section opens with the output mask at tick 0, has one record
per tick at which the mask changes, and closes with an all-low record at the total length; a pair of
zeros ends it. Then come the number of DDS records and the records themselves, four words each.

* `TtlRecord`, `DdsRecord`: the records and their words.
* `Program.ofRecords`: the words of two record lists.
* `Program.ttlRecords`, `Program.ddsRecords`: the record lists of the words.
* `Program.maskAt`: the output mask in a tick.
* `Program.bytes`: the words in the order in which the pipe ships them.
-/

namespace PulseSequencer

/-- The output mask of the lines from a tick onwards. -/
structure TtlRecord where
  tick : Word
  mask : Word
  deriving DecidableEq, Repr, Inhabited

/-- The synthesizer words that a DDS channel takes at a tick. -/
structure DdsRecord where
  tick : Word
  channel : UInt8
  profile : UInt8
  frequency : Word
  amplitude : BitVec 16
  phase : BitVec 16
  deriving DecidableEq, Repr, Inhabited

/-- The words of a TTL record. -/
def TtlRecord.words (r : TtlRecord) : List Word := [r.tick, r.mask]

namespace DdsRecord

/-- Channel and profile in one word: the channel above the low byte. -/
def selector (r : DdsRecord) : Word := (0 : BitVec 16) ++ r.channel.toBitVec ++ r.profile.toBitVec

/-- Amplitude and phase in one word: the amplitude in the high half. -/
def level (r : DdsRecord) : Word := r.amplitude ++ r.phase

/-- The words of a DDS record. -/
def words (r : DdsRecord) : List Word := [r.tick, r.selector, r.frequency, r.level]

/-- The DDS record of four words. -/
def ofWords (tick selector frequency level : Word) : DdsRecord where
  tick
  channel := ⟨selector.extractLsb' 8 8⟩
  profile := ⟨selector.extractLsb' 0 8⟩
  frequency
  amplitude := level.extractLsb' 16 16
  phase := level.extractLsb' 0 16

/-- The records of a run of words; an incomplete one at the end is left out. -/
def readAll : List Word → List DdsRecord
  | a :: b :: c :: d :: rest => ofWords a b c d :: readAll rest
  | _ => []

end DdsRecord

/-- A program: its words and its length in ticks. -/
structure Program where
  words : List Word
  totalTicks : Nat
  deriving DecidableEq, Repr, Inhabited

namespace Program

/-- The words of a TTL section and a DDS section. -/
def ofRecords (ttl : List TtlRecord) (dds : List DdsRecord) : List Word :=
  ttl.flatMap TtlRecord.words ++ [0, 0, BitVec.ofNat 32 dds.length] ++ dds.flatMap DdsRecord.words

/-- The records up to the first pair of zeros, and the words after that pair. Without such a pair
the last record counts as the end. -/
def untilZeros : List Word → List TtlRecord × List Word
  | tick :: mask :: rest =>
    if tick = 0 ∧ mask = 0 then ([], rest)
    else
      let (records, words) := untilZeros rest
      (⟨tick, mask⟩ :: records, words)
  | _ => ([], [])

/-- The TTL records and the words of the DDS section. The first record stands at tick 0 and may have
an empty mask, so it never ends the section. -/
def sections : List Word → List TtlRecord × List Word
  | tick :: mask :: rest =>
    let (records, words) := untilZeros rest
    (⟨tick, mask⟩ :: records, words)
  | _ => ([], [])

/-- The records of the TTL section. -/
def ttlRecords (p : Program) : List TtlRecord := (sections p.words).1

/-- The records of the DDS section. -/
def ddsRecords (p : Program) : List DdsRecord :=
  match (sections p.words).2 with
  | [] => []
  | count :: rest => (DdsRecord.readAll rest).take count.toNat

/-- The output mask in a tick; low after the end. -/
def maskAt (p : Program) (tick : Nat) : Word :=
  if p.totalTicks ≤ tick then 0
  else
    match (p.ttlRecords.takeWhile (fun r => r.tick.toNat ≤ tick)).getLast? with
    | none => 0
    | some r => r.mask

/-- The bytes of the program in the order in which the pipe ships them. -/
def bytes (p : Program) : List Byte := p.words.flatMap Word.toPipe

end Program

end PulseSequencer
