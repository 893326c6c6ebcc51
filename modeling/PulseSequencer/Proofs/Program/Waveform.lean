import PulseSequencer.Proofs.Word
import PulseSequencer.Proofs.Program.Compile

/-!
# The waveform of a program

A line of a compiled program is high in a tick exactly if a pulse of the sequence covers that tick
on that line. Between two edges the mask of the high lines stays as it is, so the last record up to
a tick tells the mask in it.

* `Edge.high_iff`: a line is high where a pulse covers it, however pulses overlap.
* `Edge.mask_eq_of_no_edge`: the mask does not change between edges.
* `Edge.latest`: the mask of the last entry up to a tick, and `Edge.latest_maskChanges`, that the
  entries of the sweep tell the mask in every tick.
* `maskAt_getLsbD_iff`: the waveform of a compiled program.
-/

namespace PulseSequencer

/-- Whether a pulse covers a tick, its two ends rounded down. -/
def TtlPulse.Covers (timing : Timing) (q : TtlPulse) (tick : Nat) : Prop :=
  timing.ticks q.start ≤ tick ∧ tick < timing.ticks q.finish

instance TtlPulse.decidableCovers (timing : Timing) (q : TtlPulse) (tick : Nat) :
    Decidable (q.Covers timing tick) :=
  inferInstanceAs (Decidable (_ ∧ _))

/-! ## Lines that are high -/

namespace Edge

/-- The edges of a list of pulses are those of its first pulse and those of the others. -/
lemma passed_ofPulses_cons (timing : Timing) (q : TtlPulse) (rest : List TtlPulse) (rising : Bool)
    (c t : Nat) :
    passed (ofPulses timing (q :: rest)) rising c t =
      passed (ofPulses timing rest) rising c t +
        if q.line.toNat = c ∧
          (if rising then timing.ticks q.start else timing.ticks q.finish) ≤ t then 1 else 0 := by
  have split : ofPulses timing (q :: rest) =
      ⟨timing.ticks q.start, q.line, true⟩ :: ⟨timing.ticks q.finish, q.line, false⟩ ::
        ofPulses timing rest := rfl
  unfold passed
  rw [split, List.countP_cons, List.countP_cons]
  cases rising <;> simp

/-- A line was raised as often as it was lowered, and once more for each pulse that covers the
tick. -/
lemma passed_rising_eq (timing : Timing) (pulses : List TtlPulse) (c t : Nat) :
    passed (ofPulses timing pulses) true c t =
      passed (ofPulses timing pulses) false c t +
        pulses.countP fun q => decide (q.line.toNat = c ∧ q.Covers timing t) := by
  induction pulses with
  | nil => rfl
  | cons q rest ih =>
    have order : timing.ticks q.start ≤ timing.ticks q.finish :=
      timing.ticks_mono (Nat.le_add_right _ _)
    have first :
        (if q.line.toNat = c ∧ timing.ticks q.start ≤ t then 1 else 0) =
          (if q.line.toNat = c ∧ timing.ticks q.finish ≤ t then 1 else 0) +
            if q.line.toNat = c ∧ q.Covers timing t then 1 else 0 := by
      unfold TtlPulse.Covers
      by_cases hline : q.line.toNat = c
      · simp only [hline, true_and]
        split <;> split <;> split <;> omega
      · simp [hline]
    simp only [passed_ofPulses_cons, List.countP_cons, decide_eq_true_eq, ih, if_true,
      Bool.false_eq_true, if_false, first]
    omega

/-- A line is high in a tick if some pulse on it covers the tick. -/
lemma high_iff (timing : Timing) (pulses : List TtlPulse) (c t : Nat) :
    high (ofPulses timing pulses) c t = true ↔
      ∃ q ∈ pulses, q.line.toNat = c ∧ q.Covers timing t := by
  rw [high, passed_rising_eq, decide_eq_true_iff, Nat.lt_add_right_iff_pos, List.countP_pos_iff]
  simp only [decide_eq_true_eq]

/-- The bits of a word in which the first `n` lines were assigned in turn. -/
lemma getLsbD_foldl_assign (f : Nat → Bool) (n : Nat) {c : Nat} (hc : c < 32) :
    ((List.range n).foldl (fun (w : Word) i => w.assign i (f i)) 0).getLsbD c =
      (decide (c < n) && f c) := by
  induction n with
  | zero => simp
  | succ n ih =>
    rw [List.range_succ, List.foldl_concat, Word.getLsbD_assign _ _ _ hc, ih]
    by_cases h : c = n
    · simp [h]
    · have hlt : c < n + 1 ↔ c < n := by omega
      simp [h, hlt]

/-- The bits of a mask are the lines that are high. -/
lemma getLsbD_mask (edges : List Edge) (t : Nat) {c : Nat} (hc : c < 32) :
    (mask edges t).getLsbD c = high edges c t := by
  rw [mask, getLsbD_foldl_assign _ _ hc]
  simp [lineLimit, hc]

/-- Without an edge in between, a later tick has the mask of an earlier one. -/
lemma mask_eq_of_no_edge {edges : List Edge} {a b : Nat} (hab : a ≤ b)
    (h : ∀ e ∈ edges, e.tick ≤ a ∨ b < e.tick) : mask edges b = mask edges a := by
  have passed_eq : ∀ rising c, passed edges rising c b = passed edges rising c a := by
    intro rising c
    apply List.countP_congr
    intro e he
    have hiff : e.tick ≤ b ↔ e.tick ≤ a := by
      rcases h e he with h | h <;> omega
    simp [hiff]
  simp only [mask, high, passed_eq]

/-! ## The last record up to a tick -/

/-- The mask of the last entry up to a tick, `w` if there is none; the entries are in order. -/
def latest (tick : Nat) : (w : Word) → List (Nat × Word) → Word
  | w, [] => w
  | w, (u, m) :: rest => if u ≤ tick then latest tick m rest else w

/-- Entries after the tick do not matter. -/
lemma latest_append_of_lt {t u : Nat} (h : t < u) (m w : Word) (entries : List (Nat × Word)) :
    latest t w (entries ++ [(u, m)]) = latest t w entries := by
  induction entries generalizing w with
  | nil => simp [latest, h]
  | cons entry rest ih => simp only [List.cons_append, latest, ih]

/-- Before the first change a mask is as it was. -/
lemma latest_maskChanges_of_lt {mask : Nat → Word} {t : Nat} {ticks : List Nat}
    (h : ∀ u ∈ ticks, t < u) (w previous : Word) :
    latest t w (maskChanges mask previous ticks) = w := by
  match hm : maskChanges mask previous ticks with
  | [] => rfl
  | entry :: rest =>
    have hentry : entry ∈ maskChanges mask previous ticks := by rw [hm]; exact List.mem_cons_self
    have hlt := h _ (mem_ticks_of_mem_maskChanges hentry)
    simp [latest, hlt]

/-- The entries of a sweep over `ticks`, begun at `u`, tell the mask in tick `t`, if the mask can
only change at these ticks. -/
lemma latest_maskChanges {mask : Nat → Word} {t : Nat} {ticks : List Nat} {u : Nat}
    (hu : u ≤ t) (sorted : ticks.Pairwise (· ≤ ·)) (after : ∀ x ∈ ticks, u ≤ x)
    (still : ∀ a, u ≤ a → a ≤ t → (∀ x ∈ ticks, x ≤ a ∨ t < x) → mask t = mask a) :
    latest t (mask u) (maskChanges mask (mask u) ticks) = mask t := by
  -- `u` is the last tick that the sweep has taken up; it stays at most `t` until the entries end
  induction ticks generalizing u with
  | nil => exact (still u (Nat.le_refl u) hu (by simp)).symm
  | cons x rest ih =>
    obtain ⟨hx, hrest⟩ := List.pairwise_cons.mp sorted
    by_cases hxt : x ≤ t
    · have hux := after x List.mem_cons_self
      have rest_eq : latest t (mask x) (maskChanges mask (mask x) rest) = mask t := by
        apply ih hxt hrest hx
        intro a ha hat hclear
        apply still a (Nat.le_trans hux ha) hat
        intro y hy
        cases hy with
        | head => exact .inl ha
        | tail _ hy => exact hclear y hy
      unfold maskChanges
      split
      case isTrue heq => rwa [← heq]
      case isFalse => simpa only [latest, if_pos hxt] using rest_eq
    · have beyond : ∀ y ∈ x :: rest, t < y := by
        intro y hy
        cases hy with
        | head => omega
        | tail _ hy => exact Nat.lt_of_lt_of_le (by omega) (hx y hy)
      rw [latest_maskChanges_of_lt beyond]
      exact (still u (Nat.le_refl u) hu fun y hy => .inr (beyond y hy)).symm

/-- The entries of the sweep over the edges of pulses tell the mask in every tick before the end. -/
lemma latest_entries (edges : List Edge) {total t : Nat} (ht : t < total) (w : Word) :
    latest t w (entries edges total) = mask edges t := by
  have still : ∀ a, 0 ≤ a → a ≤ t → (∀ x ∈ ticksWithin edges total, x ≤ a ∨ t < x) →
      mask edges t = mask edges a := by
    intro a _ hat hclear
    apply mask_eq_of_no_edge hat
    intro e he
    -- an edge at tick 0 or after the end is none of the ticks that were looked at
    by_cases hzero : 0 < e.tick
    · by_cases hend : e.tick < total
      · exact hclear e.tick (mem_ticksWithin.mpr ⟨⟨e, he, rfl⟩, hzero, hend⟩)
      · exact .inr (by omega)
    · exact .inl (by omega)
  have changes := latest_maskChanges (Nat.zero_le t) (ticksWithin_sorted edges total)
    (fun _ _ => Nat.zero_le _) still
  rw [entries, List.cons_append, latest, if_pos (Nat.zero_le t), latest_append_of_lt ht, changes]

end Edge

/-- Reading the mask of the last record up to a tick is reading the last entry up to it. -/
lemma latest_of_written {entries : List (Nat × Word)} {ttl : List TtlRecord}
    (h : List.Forall₂ TtlEntry.Written entries ttl) (t : Nat) (w : Word) :
    ((ttl.takeWhile fun r => r.tick.toNat ≤ t).getLast?.map TtlRecord.mask).getD w =
      Edge.latest t w entries := by
  induction h generalizing w with
  | nil => rfl
  | @cons entry r entries ttl hw _ ih =>
    obtain ⟨htick, hmask⟩ := hw
    rw [List.takeWhile_cons, htick, Edge.latest]
    by_cases hle : entry.1 ≤ t
    · rw [if_pos (decide_eq_true hle), if_pos hle, List.getLast?_cons, ← ih, ← hmask]
      cases (ttl.takeWhile fun r => decide (r.tick.toNat ≤ t)).getLast? <;> rfl
    · rw [if_neg (by simpa using hle), if_neg hle]
      rfl

/-- The output mask of a program before its end, as the last TTL record up to the tick. -/
lemma Program.maskAt_of_lt {p : Program} {t : Nat} (h : t < p.totalTicks) :
    p.maskAt t =
      ((p.ttlRecords.takeWhile fun r => r.tick.toNat ≤ t).getLast?.map TtlRecord.mask).getD 0 := by
  rw [maskAt, if_neg (Nat.not_le_of_lt h)]
  cases (p.ttlRecords.takeWhile fun r => decide (r.tick.toNat ≤ t)).getLast? <;> rfl

/-- The waveform of a program that was compiled under any timing: in each tick before its end, the
lines that a pulse of the sequence covers, and no others; after its end, none. -/
theorem maskAt_getLsbD_iff {s : Sequence} {registry : Registry} {timing : Timing} {p : Program}
    (h : compile s registry timing = .ok p) {c : Nat} (hc : c < lineLimit) (t : Nat) :
    (p.maskAt t).getLsbD c = true ↔
      t < p.totalTicks ∧ ∃ q ∈ s.ttlPulses, q.line.toNat = c ∧
        timing.ticks q.start ≤ t ∧ t < timing.ticks q.finish := by
  obtain ⟨ttl, dds, hp⟩ := Compiled.of_compile h
  by_cases ht : t < p.totalTicks
  · have written := compileTtl_written hp.ttlSection
    rw [Program.maskAt_of_lt ht, hp.ttlRecords, latest_of_written written, Edge.latest_entries _ ht,
      Edge.getLsbD_mask _ _ hc, Edge.high_iff]
    exact (and_iff_right ht).symm
  · have low : p.maskAt t = 0 := by rw [Program.maskAt, if_pos (Nat.le_of_not_lt ht)]
    simp [low, ht]

set_option maxRecDepth 2000 in
/-- Two pulses that overlap on line 4 hold it high from the first tick to the later end. -/
theorem overlapping_pulses_merge :
    ∃ p, compile ⟨[.ttl ⟨4, 0, 400⟩, .ttl ⟨4, 200, 400⟩], 800⟩ ⟨[], []⟩ ⟨40, 1000⟩ = .ok p ∧
      4 < lineLimit ∧ ∀ t, (p.maskAt t).getLsbD 4 = true ↔ t < 15 := by
  have h : compile ⟨[.ttl ⟨4, 0, 400⟩, .ttl ⟨4, 200, 400⟩], 800⟩ ⟨[], []⟩ ⟨40, 1000⟩ =
      .ok ⟨[0, 16, 15, 0, 20, 0, 0, 0, 0], 20⟩ := by cbv
  refine ⟨_, h, by decide, fun t => ?_⟩
  rw [maskAt_getLsbD_iff h (by decide) t]
  simp [Sequence.ttlPulses, Event.ttl?, Timing.ticks, TtlPulse.finish]
  omega

end PulseSequencer
