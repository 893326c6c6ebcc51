import Mathlib.Tactic
import PulseSequencer.Word

/-!
# Laws of words

What the bits of a word are after a bit was assigned or a field was written, and that words come
back from the bytes on a pipe.

* `Word.getLsbD_assign`, `Word.getLsbD_masked`: the bits of a changed word.
* `Word.masked_and_of_disjoint`, `Word.masked_and_self`: the fields of a changed word.
* `Word.masked_masked_comm`: the order of two writes to different bits does not matter.
* `Word.little`, `Word.toNat_ofBytes`: the number that four bytes stand for.
* `Word.length_readAll`, `Word.readAll_append`: the words of a run of bytes.
* `Word.ReadOff`: words that are read off the front of a run of bytes.
* `Word.readAll_toPipe`: the words of the bytes that a run of words is shipped as.
-/

namespace PulseSequencer.Word

/-! ## Bits -/

/-- A bit that is assigned has its value, and all others are as they were. -/
lemma getLsbD_assign (w : Word) (i : Nat) (b : Bool) {c : Nat} (hc : c < 32) :
    (w.assign i b).getLsbD c = if c = i then b else w.getLsbD c := by
  unfold assign
  by_cases hi : c = i
  · subst hi
    cases b <;> simp [hc]
  · cases b <;> simp [hc, hi]

/-- A masked write decides the bits that the mask covers. -/
lemma getLsbD_masked (w value mask : Word) (c : Nat) :
    (w.masked value mask).getLsbD c = if mask.getLsbD c then value.getLsbD c else w.getLsbD c := by
  simp only [masked, BitVec.getLsbD_or, BitVec.getLsbD_and, BitVec.getLsbD_not]
  by_cases hc : c < 32
  · cases mask.getLsbD c <;> simp [hc]
  · have hw : w.getLsbD c = false := BitVec.getLsbD_of_ge w c (Nat.le_of_not_lt hc)
    cases mask.getLsbD c <;> simp [hw]

/-- No bit is in both of two disjoint fields. -/
lemma getLsbD_of_disjoint {mask field : Word} (h : mask &&& field = 0) {c : Nat}
    (hc : mask.getLsbD c = true) : field.getLsbD c = false := by
  have hboth : (mask &&& field).getLsbD c = false := by simp [h]
  rwa [BitVec.getLsbD_and, hc, Bool.true_and] at hboth

/-- A masked write leaves a field alone that the mask does not touch. -/
lemma masked_and_of_disjoint {mask field : Word} (h : mask &&& field = 0) (w value : Word) :
    w.masked value mask &&& field = w &&& field := by
  apply BitVec.eq_of_getLsbD_eq
  intro c _
  rw [BitVec.getLsbD_and, BitVec.getLsbD_and, getLsbD_masked]
  cases hmask : mask.getLsbD c with
  | false => rfl
  | true => rw [getLsbD_of_disjoint h hmask, Bool.and_false, Bool.and_false]

/-- Masked writes to different bits can be made in either order. -/
lemma masked_masked_comm {mask mask' : Word} (h : mask &&& mask' = 0) (w value value' : Word) :
    (w.masked value mask).masked value' mask' = (w.masked value' mask').masked value mask := by
  apply BitVec.eq_of_getLsbD_eq
  intro c _
  simp only [getLsbD_masked]
  cases hmask : mask.getLsbD c with
  | false => rfl
  | true => rw [getLsbD_of_disjoint h hmask]; rfl

/-- A masked write decides a field that the mask is. -/
lemma masked_and_self (w value mask : Word) : w.masked value mask &&& mask = value &&& mask := by
  apply BitVec.eq_of_getLsbD_eq
  intro c _
  rw [BitVec.getLsbD_and, BitVec.getLsbD_and, getLsbD_masked]
  cases mask.getLsbD c with
  | false => rw [Bool.and_false, Bool.and_false]
  | true => rfl

/-- A mask of all bits replaces the whole word. -/
@[simp] lemma masked_all (w value : Word) : w.masked value all = value := by
  apply BitVec.eq_of_getLsbD_eq
  intro c hc
  rw [getLsbD_masked, all, BitVec.getLsbD_allOnes, decide_eq_true hc, if_pos rfl]

/-! ## Bytes on a pipe -/

/-- The byte `k` of a word has its bits from `8 k` onwards. -/
lemma getLsbD_byte (w : Word) (k i : Nat) :
    (w.byte k).toBitVec.getLsbD i = (decide (i < 8) && w.getLsbD (8 * k + i)) := by
  simp [byte]

/-- A word is made of its four bytes. -/
lemma ofBytes_byte (w : Word) : ofBytes (w.byte 3) (w.byte 2) (w.byte 1) (w.byte 0) = w := by
  apply BitVec.eq_of_getLsbD_eq
  intro i hi
  simp only [ofBytes, BitVec.getLsbD_append, getLsbD_byte]
  -- the byte that bit `i` lies in
  split
  · simp [*]
  · split
    · have : 8 * 1 + (i - 8) = i := by omega
      simp [*]
    · split
      · have : 8 * 2 + (i - 8 - 8) = i := by omega
        simp [*]
      · have : 8 * 3 + (i - 8 - 8 - 8) = i := by omega
        have : i - 8 - 8 - 8 < 8 := by omega
        simp [*]

/-- The number of four bytes, the least significant one first. -/
def little (a b c d : Byte) : Nat := a.toNat + 2 ^ 8 * b.toNat + 2 ^ 16 * c.toNat + 2 ^ 24 * d.toNat

/-- The number of two words in a row. -/
lemma toNat_append {v w : Nat} (x : BitVec v) (y : BitVec w) :
    (x ++ y).toNat = x.toNat * 2 ^ w + y.toNat := by
  rw [BitVec.toNat_append, Nat.shiftLeft_eq, mul_comm, ← Nat.two_pow_add_eq_or_of_lt y.isLt]

/-- Four bytes make a word, the most significant one first. -/
lemma toNat_ofBytes (a b c d : Byte) : (ofBytes a b c d).toNat = little d c b a := by
  simp only [ofBytes, toNat_append, little, UInt8.toNat_toBitVec]
  omega

section
variable {α : Type} (read : Byte → Byte → Byte → Byte → α)

/-- Every four bytes are read as one word. -/
lemma length_readAll (bytes : List Byte) : (readAll read bytes).length = bytes.length / 4 := by
  match bytes with
  | [] => rfl
  | [_] | [_, _] | [_, _, _] => simp [readAll]
  | a :: b :: c :: d :: rest =>
    rw [readAll, List.length_cons, length_readAll rest]
    simp only [List.length_cons]
    omega

/-- Whole words are read the same whatever comes after them. -/
lemma readAll_append {bytes : List Byte} (h : 4 ∣ bytes.length) (more : List Byte) :
    readAll read (bytes ++ more) = readAll read bytes ++ readAll read more := by
  match bytes with
  | [] => rfl
  | [_] | [_, _] | [_, _, _] => simp at h
  | a :: b :: c :: d :: rest =>
    have hrest : 4 ∣ rest.length := by simpa [Nat.dvd_add_left] using h
    simp only [List.cons_append, readAll, readAll_append hrest more]

/-- Bytes behind the last whole word are left out. -/
lemma readAll_take_whole (bytes : List Byte) :
    readAll read (bytes.take (bytes.length / 4 * 4)) = readAll read bytes := by
  have hwhole : 4 ∣ (bytes.take (bytes.length / 4 * 4)).length := by
    rw [List.length_take, Nat.min_eq_left (Nat.div_mul_le_self _ _)]
    exact Nat.dvd_mul_left 4 _
  have hrest : readAll read (bytes.drop (bytes.length / 4 * 4)) = [] := by
    rw [← List.length_eq_zero_iff, length_readAll, List.length_drop]
    omega
  conv_rhs => rw [← List.take_append_drop (bytes.length / 4 * 4) bytes,
    readAll_append read hwhole, hrest, List.append_nil]

/-- What is made of the words may be made as they are read. -/
lemma map_readAll {β : Type} (f : α → β) (bytes : List Byte) :
    (readAll read bytes).map f = readAll (fun a b c d => f (read a b c d)) bytes := by
  fun_induction readAll read bytes with
  | case1 a b c d rest ih => simp only [List.map_cons, readAll, ih]
  | case2 bytes hbytes =>
    unfold readAll
    split
    · exact absurd rfl (hbytes _ _ _ _ _)
    · rfl

/-- Items are read off the front of a run of bytes, four bytes each, and the rest is left. -/
def ReadOff (bytes : List Byte) (items : List α) (rest : List Byte) : Prop :=
  ∃ taken, bytes = taken ++ rest ∧ taken.length = 4 * items.length ∧ items = readAll read taken

namespace ReadOff

variable {read} {bytes more rest : List Byte} {items items' : List α}

/-- Nothing was read yet. -/
lemma nil (bytes : List Byte) : ReadOff read bytes [] bytes := ⟨[], rfl, rfl, rfl⟩

/-- What is made of the items may be made as they are read. -/
lemma map {β : Type} (f : α → β) (h : ReadOff read bytes items rest) :
    ReadOff (fun a b c d => f (read a b c d)) bytes (items.map f) rest := by
  obtain ⟨taken, hbytes, hlength, rfl⟩ := h
  exact ⟨taken, hbytes, by rw [hlength, List.length_map], map_readAll read f taken⟩

/-- Whole words at the front are read off, and the others are left. -/
lemma take {length : Nat} (hwhole : 4 ∣ length) (hwithin : length ≤ bytes.length) :
    ReadOff read bytes (readAll read (bytes.take length)) (bytes.drop length) := by
  refine ⟨bytes.take length, (List.take_append_drop length bytes).symm, ?_, rfl⟩
  rw [length_readAll, List.length_take, Nat.min_eq_left hwithin, Nat.mul_div_cancel' hwhole]

/-- Bytes that come in meanwhile wait behind the others. -/
lemma trans {rest' : List Byte} (h : ReadOff read bytes items rest)
    (h' : ReadOff read (rest ++ more) items' rest') :
    ReadOff read (bytes ++ more) (items ++ items') rest' := by
  obtain ⟨taken, rfl, hlength, rfl⟩ := h
  obtain ⟨taken', hrest, hlength', rfl⟩ := h'
  refine ⟨taken ++ taken', by rw [List.append_assoc, hrest, List.append_assoc], ?_, ?_⟩
  · rw [List.length_append, List.length_append, hlength, hlength', Nat.mul_add]
  · rw [readAll_append read (hlength ▸ Nat.dvd_mul_right 4 _)]

end ReadOff

end

/-- Words are read back from the bytes that they are shipped as. -/
lemma readAll_toPipe (ws : List Word) : readAll ofPipe (ws.flatMap toPipe) = ws := by
  induction ws with
  | nil => rfl
  | cons w rest ih =>
    simp only [List.flatMap_cons, toPipe, List.cons_append, List.nil_append, readAll, ih]
    rw [ofPipe, ofBytes_byte]

/-- A word is four bytes in a pipe. -/
lemma length_toPipe (ws : List Word) : (ws.flatMap toPipe).length = 4 * ws.length := by
  induction ws with
  | nil => rfl
  | cons w rest ih =>
    rw [List.flatMap_cons, List.length_append, ih, List.length_cons]
    simp only [toPipe, List.length_cons, List.length_nil]
    omega

/-- What is read off the bytes of words are words, in order, and the rest are the bytes of the
others. -/
lemma ReadOff.words {ws items : List Word} {rest : List Byte}
    (h : ReadOff ofPipe (ws.flatMap toPipe) items rest) :
    ∃ left, ws = items ++ left ∧ rest = left.flatMap toPipe := by
  obtain ⟨taken, hws, hlength, hitems⟩ := h
  have hcount : items.length ≤ ws.length := by
    have := congrArg List.length hws
    rw [length_toPipe, List.length_append, hlength] at this
    omega
  have hsplit : (ws.take items.length).flatMap toPipe ++ (ws.drop items.length).flatMap toPipe =
      taken ++ rest := by
    rw [← List.flatMap_append, List.take_append_drop, hws]
  obtain ⟨hfront, hback⟩ := List.append_inj hsplit (by
    rw [length_toPipe, List.length_take, Nat.min_eq_left hcount, hlength])
  refine ⟨ws.drop items.length, ?_, hback.symm⟩
  rw [← hfront, readAll_toPipe] at hitems
  exact (List.take_append_drop items.length ws).symm.trans (by rw [← hitems])

end PulseSequencer.Word
