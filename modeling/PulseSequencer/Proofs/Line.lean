import PulseSequencer.Line
import PulseSequencer.Proofs.Result
import PulseSequencer.Proofs.Word

/-!
# The words of a table of lines

The two words of a table have one bit per line, which its state decides; the bits of a line that is
not configured are clear. To change the state of one line is to assign its two bits.

* `LineTable.exists_register`: a table of lines that the board has makes two words.
* `LineTable.getLsbD_register`: the bits of these words.
* `LineTable.register_insert`: the words of a table with one line changed.
-/

namespace PulseSequencer.LineTable

variable {t : LineTable} {r : LineRegister}

/-- The words of a table of lines that the board has. -/
lemma exists_register (h : ∀ index s, t index = some s → index.toNat < lineLimit) :
    ∃ r, t.register = .ok r := by
  refine Result.exists_foldlM (fun r i => ?_) _ _
  cases hi : t (UInt8.ofNat i) with
  | none => exact ⟨r, rfl⟩
  | some s => exact ⟨_, if_pos (h _ s hi)⟩

/-- The bits of the lines below `n` are as the table says, and the others are clear. -/
def ShowsBelow (t : LineTable) (n : Nat) (r : LineRegister) : Prop :=
  ∀ c < lineLimit,
    r.manual.getLsbD c = (decide (c < n) && (t (UInt8.ofNat c)).elim false LineState.manual) ∧
    r.level.getLsbD c = (decide (c < n) && (t (UInt8.ofNat c)).elim false LineState.levelBit)

/-- One more line is looked at. -/
lemma ShowsBelow.succ {n : Nat} (h : t.ShowsBelow n r) (hn : n < UInt8.size) {r' : LineRegister}
    (hr' : (match t (UInt8.ofNat n) with
      | some s => r.set (UInt8.ofNat n) s
      | none => pure r) = .ok r') : t.ShowsBelow (n + 1) r' := by
  intro c hc
  obtain ⟨hmanual, hlevel⟩ := h c hc
  have hbelow : c ≠ n → decide (c < n + 1) = decide (c < n) := fun hne => by
    rw [decide_eq_decide]
    omega
  cases hline : t (UInt8.ofNat n) with
  | none =>
    rw [hline] at hr'
    cases hr'
    by_cases hcn : c = n
    · subst hcn
      rw [hmanual, hlevel, hline]
      simp
    · rw [hbelow hcn]
      exact ⟨hmanual, hlevel⟩
  | some s =>
    -- of both words the bit of line `n` is written, and no other one
    have hindex : (UInt8.ofNat n).toNat = n := UInt8.toNat_ofNat_of_lt' hn
    rw [hline] at hr'
    simp only [LineRegister.set, hindex] at hr'
    split at hr'
    case isFalse => cases hr'
    case isTrue =>
      cases hr'
      simp only [Word.getLsbD_assign _ _ _ hc]
      by_cases hcn : c = n
      · subst hcn
        rw [hline]
        simp
      · rw [if_neg hcn, if_neg hcn, hbelow hcn]
        exact ⟨hmanual, hlevel⟩

/-- The words of a table show the bits of every line. -/
lemma showsBelow_register (h : t.register = .ok r) : t.ShowsBelow UInt8.size r := by
  -- by induction on how many lines were looked at, whatever words they made
  have along (n : Nat) (hn : n ≤ UInt8.size) (r : LineRegister)
      (h : (List.range n).foldlM (fun r i =>
        match t (UInt8.ofNat i) with
        | some s => r.set (UInt8.ofNat i) s
        | none => pure r) LineRegister.empty = .ok r) : t.ShowsBelow n r := by
    induction n generalizing r with
    | zero =>
      cases h
      intro c _
      simp [LineRegister.empty]
    | succ n ih =>
      rw [List.range_succ, List.foldlM_append, Result.bind_eq_ok] at h
      obtain ⟨r', hr', h⟩ := h
      rw [List.foldlM_cons, Result.bind_eq_ok] at h
      obtain ⟨r'', hr'', h⟩ := h
      cases h
      exact (ih (Nat.le_of_succ_le hn) r' hr').succ hn hr''
  exact along UInt8.size le_rfl r h

/-- The words of a register show the bits of each line, and no bit for a line without a state. -/
lemma getLsbD_register (h : t.register = .ok r) {index : UInt8} (hindex : index.toNat < lineLimit) :
    r.manual.getLsbD index.toNat = (t index).elim false LineState.manual ∧
      r.level.getLsbD index.toNat = (t index).elim false LineState.levelBit := by
  have hbits := showsBelow_register h index.toNat hindex
  rw [decide_eq_true index.toNat_lt_size, Bool.true_and, Bool.true_and, UInt8.ofNat_toNat] at hbits
  exact hbits

/-- The words of a table with one line changed have the two bits of that line assigned. -/
lemma register_insert (hr : t.register = .ok r)
    (hlines : ∀ index s, t index = some s → index.toNat < lineLimit) {index : UInt8}
    (hindex : index.toNat < lineLimit) (s : LineState) :
    (t.insert index s).register =
      .ok ⟨r.manual.assign index.toNat s.manual, r.level.assign index.toNat s.levelBit⟩ := by
  have hinsert : ∀ other s', t.insert index s other = some s' → other.toNat < lineLimit := by
    intro other s' hother
    by_cases heq : other = index
    · rw [heq]
      exact hindex
    · exact hlines other s' ((if_neg heq).symm.trans hother)
  obtain ⟨⟨manual, level⟩, hr'⟩ := exists_register hinsert
  rw [hr']
  -- the two tables are compared bit by bit, as neither register is built from the other
  have hbit (c : Nat) (hc : c < 32) :
      manual.getLsbD c = (r.manual.assign index.toNat s.manual).getLsbD c ∧
        level.getLsbD c = (r.level.assign index.toNat s.levelBit).getLsbD c := by
    obtain ⟨hmanual', hlevel'⟩ := showsBelow_register hr' c hc
    obtain ⟨hmanual, hlevel⟩ := showsBelow_register hr c hc
    have hsize : c < UInt8.size := Nat.lt_trans hc (by decide)
    rw [Word.getLsbD_assign _ _ _ hc, Word.getLsbD_assign _ _ _ hc, hmanual', hlevel', hmanual,
      hlevel, decide_eq_true hsize]
    by_cases heq : c = index.toNat
    · simp [heq, insert]
    · have hofNat : UInt8.ofNat c ≠ index := fun h => heq <| by
        rw [← h, UInt8.toNat_ofNat_of_lt' hsize]
      simp [heq, insert, hofNat]
  rw [BitVec.eq_of_getLsbD_eq fun c hc => (hbit c hc).1,
    BitVec.eq_of_getLsbD_eq fun c hc => (hbit c hc).2]

end PulseSequencer.LineTable
