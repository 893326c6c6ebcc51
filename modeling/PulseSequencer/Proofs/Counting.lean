import PulseSequencer.Counting
import PulseSequencer.Proofs.Action
import PulseSequencer.Proofs.Word

/-!
# Collection times, records and their samples

The board takes a collection time as a whole number of milliseconds. Four bytes make a record: a
count in 31 bits, and one bit for the light. Callers are not given records but samples, one for each
record that was read, in the same order.

* `RoundsTo`: the word nearest to a double; `roundsTo_roundToWord`, that it is found.
* `Record.ofBytes_eq`: the count and the light of four bytes.
* `Record.tell`: what four bytes tell of a window, as the number that they are.
* `Sample.Of`: the samples of records, one by one; `Sample.of_ofRecords`, that they are such.
* `Counting.drain_of_ok`, `Counting.drain_of_error`: a reading gives the samples of its records.
-/

namespace PulseSequencer

/-- The word `w` is the whole number nearest to `x`: what is left of `x` above its whole part
decides whether the next number is taken, unless the whole part is the greatest word. -/
structure RoundsTo (x : Float) (w : Word) : Prop where
  up : x - x.toUInt32.toFloat ≥ 0.5 → x.toUInt32 ≠ 0xffffffff → w.toNat = x.toUInt32.toNat + 1
  down : ¬x - x.toUInt32.toFloat ≥ 0.5 → w.toNat = x.toUInt32.toNat
  greatest : x.toUInt32 = 0xffffffff → w.toNat = 2 ^ 32 - 1

/-- A double is rounded to the word nearest to it. -/
lemma roundsTo_roundToWord (x : Float) : RoundsTo x (roundToWord x) := by
  have hnext (whole : UInt32) (hne : whole ≠ 0xffffffff) :
      (whole + 1).toBitVec.toNat = whole.toNat + 1 := by
    have hlt : whole.toNat ≠ 2 ^ 32 - 1 := fun h => hne (UInt32.toNat_inj.mp h)
    have := whole.toNat_lt
    rw [UInt32.toNat_toBitVec, UInt32.toNat_add]
    exact Nat.mod_eq_of_lt (by rw [UInt32.toNat_one]; omega)
  unfold roundToWord
  constructor
  case up =>
    intro hhalf hne
    rw [if_pos ⟨hhalf, hne⟩]
    exact hnext _ hne
  case down =>
    intro hhalf
    rw [if_neg fun h => hhalf h.1]
    rfl
  case greatest =>
    intro heq
    rw [if_neg fun h => h.2 heq, heq]
    rfl

namespace Record

/-- Bit 31 is not set in the numbers below `2 ^ 31`. -/
lemma and_offBit_eq_zero (w : Word) : w &&& offBit = 0 ↔ w.toNat < 2 ^ 31 := by
  have hbit : w &&& offBit = if w.getLsbD 31 then BitVec.twoPow 32 31 else 0#32 :=
    BitVec.and_twoPow w 31
  have hmsb : w.getLsbD 31 = decide (2 ^ 31 ≤ w.toNat) := BitVec.msb_eq_decide w
  rw [hbit, hmsb]
  by_cases h : 2 ^ 31 ≤ w.toNat
  · rw [decide_eq_true h]
    exact iff_of_false (by decide) (by omega)
  · rw [decide_eq_false h]
    exact iff_of_true rfl (by omega)

/-- A number without its bit 31. -/
lemma toNat_and_not_offBit (w : Word) : (w &&& ~~~offBit).toNat = w.toNat % 2 ^ 31 := by
  have hrest : ~~~offBit = BitVec.ofNat 32 (2 ^ 31 - 1) := rfl
  rw [hrest, BitVec.toNat_and, BitVec.toNat_ofNat, Nat.mod_eq_of_lt (by decide)]
  exact Nat.and_two_pow_sub_one_eq_mod _ _

/-- The count of a record is its number without bit 31, which tells that the light was off. -/
lemma ofBytes_eq (a b c d : Byte) :
    (Record.ofBytes a b c d).count.toNat = Word.little a b c d % 2 ^ 31 ∧
      ((Record.ofBytes a b c d).light = .off ↔ 2 ^ 31 ≤ Word.little a b c d) := by
  have hword : (Word.ofLittle a b c d).toNat = Word.little a b c d := Word.toNat_ofBytes d c b a
  have hlight := and_offBit_eq_zero (Word.ofLittle a b c d)
  rw [hword] at hlight
  unfold Record.ofBytes ofWord
  split
  case isTrue hon =>
    have hsmall := hlight.mp hon
    exact ⟨hword.trans (Nat.mod_eq_of_lt hsmall).symm, iff_of_false nofun (by omega)⟩
  case isFalse hoff =>
    have hlarge : ¬Word.little a b c d < 2 ^ 31 := fun h => hoff (hlight.mpr h)
    exact ⟨hword ▸ toNat_and_not_offBit _, iff_of_true rfl (by omega)⟩

/-- What a record tells of its window, if windows last `seconds`: the rate and the light. -/
def told (seconds : Float) (r : Record) : Float × Light :=
  (Float.ofNat r.count.toNat / seconds / 1000.0, r.light)

/-- What four bytes tell of a window, as a number with the least significant byte first. The number
without bit 31 is the count, and bit 31 says that the light was off. -/
def tell (seconds : Float) (a b c d : Byte) : Float × Light :=
  (Float.ofNat (Word.little a b c d % 2 ^ 31) / seconds / 1000.0,
    if 2 ^ 31 ≤ Word.little a b c d then .off else .on)

/-- The record of four bytes tells what the bytes tell. -/
lemma told_ofBytes (seconds : Float) (a b c d : Byte) :
    (Record.ofBytes a b c d).told seconds = tell seconds a b c d := by
  obtain ⟨hcount, hlight⟩ := ofBytes_eq a b c d
  rw [told, tell, hcount]
  cases h : (Record.ofBytes a b c d).light with
  | on => rw [if_neg fun hoff => nomatch h.symm.trans (hlight.mpr hoff)]
  | off => rw [if_pos (hlight.mp h)]

end Record

namespace Sample

/-- What a sample tells of its window: the rate and the light. -/
def told (s : Sample) : Float × Light := (s.rate, s.light)

/-- There is one sample for each record, in the same order. It tells what the record tells; the last
one closed at `readTime`, and each one before it `seconds` earlier. -/
structure Of (records : List Record) (seconds readTime : Float) (samples : List Sample) : Prop where
  length : samples.length = records.length
  sample : ∀ k r, records[k]? = some r → ∃ s, samples[k]? = some s ∧ s.told = r.told seconds ∧
    s.time = readTime - Float.ofNat (records.length - 1 - k) * seconds

variable {records : List Record} {seconds readTime : Float} {samples : List Sample}

/-- The samples that records give are such. -/
lemma of_ofRecords (records : List Record) (seconds readTime : Float) :
    Of records seconds readTime (ofRecords records seconds readTime) := by
  refine ⟨length_ofRecords records seconds readTime, fun k r hr => ?_⟩
  rw [getElem?_ofRecords, hr]
  exact ⟨_, rfl, rfl, rfl⟩

/-- What the samples tell is what the records tell, one by one. -/
lemma Of.map_told (h : Of records seconds readTime samples) :
    samples.map told = records.map (Record.told seconds) := by
  refine List.ext_getElem? fun k => ?_
  rw [List.getElem?_map, List.getElem?_map]
  cases hr : records[k]? with
  | none =>
    have hk : samples[k]? = none := by
      rw [List.getElem?_eq_none_iff] at hr ⊢
      rwa [h.length]
    rw [hk]
    rfl
  | some r =>
    obtain ⟨s, hs, htold, -⟩ := h.sample k r hr
    rw [hs]
    exact congrArg some htold

end Sample

namespace Counting

variable {readTime : Float} {records : List Record} {h h' : Held Counting} {e : Error}

/-- The samples that are given are those of the records that were read, -/
lemma drain_of_ok (hr : drainRecords h = .ok records h') : drain readTime h =
    .ok (Sample.ofRecords records h'.state.collectionTime readTime) h' :=
  bind_of_ok hr _

/-- and none are given if the records could not be read. -/
lemma drain_of_error (hr : drainRecords h = .error e h') : drain readTime h = .error e h' :=
  bind_of_error hr _

end Counting

end PulseSequencer
