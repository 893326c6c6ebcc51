import Mathlib.Tactic
import PulseSequencer.Program

/-!
# Decoding a program

The words of a program are read back into the records that they were written from. The TTL section
has no length; it ends at the first pair of zeros, which no record after the first can be taken for
as long as those stand at ticks other than 0. The DDS section is led by its length, in one word.

* `TtlSection`: the lists that can be told from what follows them.
* `DdsRecord.readAll_words`: the records of the words of a list of records.
* `Program.sections_ofRecords`: both sections of a program.
* `Program.ttlRecords_ofRecords`, `Program.ddsRecords_ofRecords`: the two lists of records.
-/

namespace PulseSequencer

/-- A list of TTL records whose end can be seen: it is not empty, and only its first record may
stand at tick 0. -/
def TtlSection : List TtlRecord → Prop
  | [] => False
  | _ :: rest => ∀ r ∈ rest, r.tick ≠ 0

namespace DdsRecord

/-- The bits of the selector word: the profile in the low byte and the channel in the next one. -/
lemma selector_getLsbD (r : DdsRecord) (i : Nat) :
    r.selector.getLsbD i =
      if i < 8 then r.profile.toBitVec.getLsbD i
      else if i - 8 < 8 then r.channel.toBitVec.getLsbD (i - 8) else false := by
  have high : ((0 : BitVec 16) ++ r.channel.toBitVec).getLsbD (i - 8) =
      if i - 8 < 8 then r.channel.toBitVec.getLsbD (i - 8) else false := by
    rw [BitVec.getLsbD_append]
    simp
  rw [← high]
  exact BitVec.getLsbD_append

/-- The bits of the level word: the phase in the low half and the amplitude in the high one. -/
lemma level_getLsbD (r : DdsRecord) (i : Nat) :
    r.level.getLsbD i = if i < 16 then r.phase.getLsbD i else r.amplitude.getLsbD (i - 16) :=
  BitVec.getLsbD_append

/-- A record is read back from its four words. -/
lemma ofWords_words (r : DdsRecord) : ofWords r.tick r.selector r.frequency r.level = r := by
  have channel : (⟨r.selector.extractLsb' 8 8⟩ : UInt8) = r.channel := by
    apply UInt8.toBitVec_inj.mp
    ext i hi
    simp [selector_getLsbD, hi, BitVec.getLsbD_eq_getElem]
  have profile : (⟨r.selector.extractLsb' 0 8⟩ : UInt8) = r.profile := by
    apply UInt8.toBitVec_inj.mp
    ext i hi
    simp [selector_getLsbD, hi, BitVec.getLsbD_eq_getElem]
  have amplitude : r.level.extractLsb' 16 16 = r.amplitude := by
    ext i hi
    simp [level_getLsbD, hi, BitVec.getLsbD_eq_getElem]
  have phase : r.level.extractLsb' 0 16 = r.phase := by
    ext i hi
    simp [level_getLsbD, hi, BitVec.getLsbD_eq_getElem]
  cases r
  simp only [ofWords, channel, profile, amplitude, phase]

/-- The words of a list of records are read back as these records. -/
lemma readAll_words (records : List DdsRecord) :
    readAll (records.flatMap words) = records := by
  induction records with
  | nil => rfl
  | cons r rest ih =>
    simp only [List.flatMap_cons, words, List.cons_append, List.nil_append, readAll,
      ofWords_words, ih]

end DdsRecord

namespace Program

/-- Records at ticks other than 0 are read up to the pair of zeros that follows them. -/
lemma untilZeros_words {records : List TtlRecord} (h : ∀ r ∈ records, r.tick ≠ 0)
    (rest : List Word) :
    untilZeros (records.flatMap TtlRecord.words ++ 0 :: 0 :: rest) = (records, rest) := by
  induction records with
  | nil => simp [untilZeros]
  | cons r records ih =>
    have hr : ¬(r.tick = 0 ∧ r.mask = 0) := fun e => h r List.mem_cons_self e.1
    have hrest := ih fun r' hr' => h r' (List.mem_cons_of_mem r hr')
    simp only [List.flatMap_cons, TtlRecord.words, List.cons_append, List.nil_append, untilZeros,
      if_neg hr, hrest]

/-- The two sections are told apart: the TTL records, then the words of the DDS section. -/
lemma sections_ofRecords {ttl : List TtlRecord} (h : TtlSection ttl) (dds : List DdsRecord) :
    sections (ofRecords ttl dds) =
      (ttl, BitVec.ofNat 32 dds.length :: dds.flatMap DdsRecord.words) := by
  cases ttl with
  | nil => exact h.elim
  | cons r rest =>
    have hrest := untilZeros_words h (BitVec.ofNat 32 dds.length :: dds.flatMap DdsRecord.words)
    simp only [ofRecords, List.flatMap_cons, TtlRecord.words, List.cons_append, List.nil_append,
      List.append_assoc, sections, hrest]

/-- The TTL records that a program was made of. -/
lemma ttlRecords_ofRecords {ttl : List TtlRecord} (h : TtlSection ttl) (dds : List DdsRecord)
    (total : Nat) : ttlRecords ⟨ofRecords ttl dds, total⟩ = ttl := by
  simp only [ttlRecords, sections_ofRecords h]

/-- The DDS records that a program was made of, as many as the word that counts them says. -/
lemma ddsRecords_ofRecords {ttl : List TtlRecord} (h : TtlSection ttl) (dds : List DdsRecord)
    (total : Nat) :
    ddsRecords ⟨ofRecords ttl dds, total⟩ = dds.take (dds.length % Word.count) := by
  simp only [ddsRecords, sections_ofRecords h, DdsRecord.readAll_words, BitVec.toNat_ofNat]
  rfl

end Program

end PulseSequencer
