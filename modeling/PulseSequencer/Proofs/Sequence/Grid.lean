import PulseSequencer.Sequence.Grid
import PulseSequencer.Proofs.Sequence.Entries

/-!
# The columns of the grid

The boundaries of the grid are all ticks at which a sequence begins, ends or switches, in order. No
entry begins or ends inside a column, so what is active at its beginning is active throughout.

* `Grid.mem_boundaries`, `Grid.boundaries_increasing`: the boundaries.
* `Grid.head?_boundaries`, `Grid.getLast?_boundaries`: they lead from 0 to the end of the sequence.
* `Grid.ofSequence_of_totalTicks`: the grid of a sequence.
* `Grid.lineActive_eq`, `Grid.ddsActive_eq`: nothing switches inside a column.
* `Grid.Rectangular`: the shape of a grid; `Grid.Rectangular.exists_cell`, that no cell is missing.
-/

namespace PulseSequencer.Grid

variable {s : Sequence} {timing : Timing} {total : Nat}

/-! ## Boundaries -/

/-- The ticks after an insertion are those from before and the new one. -/
lemma mem_insertTick {x t : Nat} {ticks : List Nat} :
    x ∈ insertTick t ticks ↔ x = t ∨ x ∈ ticks := by
  induction ticks with
  | nil => simp [insertTick]
  | cons u rest ih =>
    unfold insertTick
    split
    · simp
    · split
      case isTrue heq => simp [heq]
      case isFalse => simp only [List.mem_cons, ih, or_left_comm]

/-- Increasing ticks stay increasing when one is inserted. -/
lemma insertTick_increasing {t : Nat} {ticks : List Nat} (h : ticks.Pairwise (· < ·)) :
    (insertTick t ticks).Pairwise (· < ·) := by
  induction ticks with
  | nil => exact List.pairwise_singleton _ _
  | cons u rest ih =>
    obtain ⟨hfirst, hrest⟩ := List.pairwise_cons.mp h
    unfold insertTick
    split
    case isTrue hlt =>
      refine List.pairwise_cons.mpr ⟨fun x hx => ?_, h⟩
      rcases List.mem_cons.mp hx with rfl | hx
      · exact hlt
      · exact Nat.lt_trans hlt (hfirst x hx)
    case isFalse hnlt =>
      split
      case isTrue => exact h
      case isFalse hne =>
        refine List.pairwise_cons.mpr ⟨fun x hx => ?_, ih hrest⟩
        rcases mem_insertTick.mp hx with rfl | hx
        · omega
        · exact hfirst x hx

/-- Ticks that are inserted one by one are all there. -/
lemma mem_foldr_insertTick {x : Nat} {ticks : List Nat} :
    x ∈ ticks.foldr insertTick [] ↔ x ∈ ticks := by
  induction ticks with
  | nil => rfl
  | cons t rest ih => rw [List.foldr_cons, mem_insertTick, ih, List.mem_cons]

/-- Ticks that are inserted one by one are increasing. -/
lemma foldr_insertTick_increasing (ticks : List Nat) :
    (ticks.foldr insertTick []).Pairwise (· < ·) := by
  induction ticks with
  | nil => exact .nil
  | cons t rest ih => exact insertTick_increasing ih

/-- The boundaries are the ticks at which the sequence begins, ends or switches. -/
lemma mem_boundaries {x : Nat} :
    x ∈ boundaries s timing total ↔
      x = 0 ∨ x = total ∨
        ∃ e ∈ s.events, x = timing.ticks e.start ∨ x = timing.ticks e.finish := by
  rw [boundaries, mem_foldr_insertTick]
  simp

/-- Boundaries are increasing. -/
lemma boundaries_increasing (s : Sequence) (timing : Timing) (total : Nat) :
    (boundaries s timing total).Pairwise (· < ·) :=
  foldr_insertTick_increasing _

/-- The first boundary is tick 0. -/
lemma head?_boundaries (s : Sequence) (timing : Timing) (total : Nat) :
    (boundaries s timing total).head? = some 0 := by
  have hzero : 0 ∈ boundaries s timing total := mem_boundaries.mpr (.inl rfl)
  have hincreasing := boundaries_increasing s timing total
  cases hb : boundaries s timing total with
  | nil =>
    rw [hb] at hzero
    cases hzero
  | cons x rest =>
    rw [hb] at hzero hincreasing
    rcases List.mem_cons.mp hzero with rfl | hrest
    · rfl
    · exact absurd ((List.pairwise_cons.mp hincreasing).1 0 hrest) (Nat.not_lt_zero x)

/-- No boundary lies beyond the end of the sequence. -/
lemma le_of_mem_boundaries (h : s.totalTicks timing = .ok total) {x : Nat}
    (hx : x ∈ boundaries s timing total) : x ≤ total := by
  rcases mem_boundaries.mp hx with rfl | rfl | ⟨e, he, rfl | rfl⟩
  · exact Nat.zero_le _
  · exact Nat.le_refl _
  · exact Nat.le_trans (timing.ticks_mono e.start_le_finish) (Sequence.ticks_finish_le h he)
  · exact Sequence.ticks_finish_le h he

/-- The last boundary is the end of the sequence. -/
lemma getLast?_boundaries (h : s.totalTicks timing = .ok total) :
    (boundaries s timing total).getLast? = some total := by
  have htotal : total ∈ boundaries s timing total := mem_boundaries.mpr (.inr (.inl rfl))
  have hincreasing := boundaries_increasing s timing total
  have hle : ∀ x ∈ boundaries s timing total, x ≤ total := fun x hx => le_of_mem_boundaries h hx
  rcases List.eq_nil_or_concat (boundaries s timing total) with hb | ⟨init, x, hb⟩
  · rw [hb] at htotal
    cases htotal
  · rw [hb, List.concat_eq_append] at htotal hincreasing hle ⊢
    rw [List.getLast?_concat]
    rcases List.mem_append.mp htotal with hinit | hlast
    · -- an earlier boundary is smaller than the last one
      have hlt := (List.pairwise_append.mp hincreasing).2.2 total hinit x (by simp)
      exact absurd (hle x (by simp)) (Nat.not_le_of_lt hlt)
    · rw [List.mem_singleton.mp hlast]

/-! ## Columns -/

/-- A member of an increasing list lies outside the gap between two neighbours. -/
lemma le_or_le_of_neighbours {ticks : List Nat} (h : ticks.Pairwise (· < ·)) {j a b x : Nat}
    (ha : ticks[j]? = some a) (hb : ticks[j + 1]? = some b) (hx : x ∈ ticks) : x ≤ a ∨ b ≤ x := by
  obtain ⟨hj, rfl⟩ := List.getElem?_eq_some_iff.mp ha
  obtain ⟨hj', rfl⟩ := List.getElem?_eq_some_iff.mp hb
  obtain ⟨k, hk, rfl⟩ := List.getElem_of_mem hx
  rw [List.pairwise_iff_getElem] at h
  rcases Nat.lt_trichotomy k j with hlt | rfl | hgt
  · exact .inl (Nat.le_of_lt (h k j hk hj hlt))
  · exact .inl (Nat.le_refl _)
  · rcases Nat.lt_or_eq_of_le (Nat.succ_le_of_lt hgt) with hlt | rfl
    · exact .inr (Nat.le_of_lt (h (j + 1) k hj' hk hlt))
    · exact .inr (Nat.le_refl _)

/-- The cells of a row, one for each boundary but the last. -/
lemma getElem?_columns {ticks : List Nat} {j a b : Nat} (f : Nat → Bool) (ha : ticks[j]? = some a)
    (hb : ticks[j + 1]? = some b) : (ticks.dropLast.map f)[j]? = some (f a) := by
  obtain ⟨hj, -⟩ := List.getElem?_eq_some_iff.mp hb
  rw [List.getElem?_map, List.getElem?_dropLast, if_pos (Nat.lt_sub_of_add_lt hj), ha]
  rfl

/-- An entry that does not switch between two ticks covers both or neither. -/
lemma covers_eq {start finish a b t : Nat}
    (hstart : timing.ticks start ≤ a ∨ b ≤ timing.ticks start)
    (hfinish : timing.ticks finish ≤ a ∨ b ≤ timing.ticks finish) (hat : a ≤ t) (htb : t < b) :
    covers timing start finish a = covers timing start finish t := by
  rw [Bool.eq_iff_iff]
  simp only [covers, Bool.and_eq_true, decide_eq_true_eq]
  omega

section

variable {j a b t : Nat} (ha : (boundaries s timing total)[j]? = some a)
  (hb : (boundaries s timing total)[j + 1]? = some b) (hat : a ≤ t) (htb : t < b)
include ha hb hat htb

/-- An entry covers the beginning of a column exactly if it covers all of it. -/
lemma covers_eq_of_mem {e : Event} (he : e ∈ s.events) :
    covers timing e.start e.finish a = covers timing e.start e.finish t := by
  have hincreasing := boundaries_increasing s timing total
  have hstart : timing.ticks e.start ∈ boundaries s timing total :=
    mem_boundaries.mpr (.inr (.inr ⟨e, he, .inl rfl⟩))
  have hfinish : timing.ticks e.finish ∈ boundaries s timing total :=
    mem_boundaries.mpr (.inr (.inr ⟨e, he, .inr rfl⟩))
  exact covers_eq (le_or_le_of_neighbours hincreasing ha hb hstart)
    (le_or_le_of_neighbours hincreasing ha hb hfinish) hat htb

/-- What is active at the beginning of a column is active throughout. -/
lemma lineActive_eq (line : UInt8) : lineActive s timing line a = lineActive s timing line t := by
  rw [lineActive, lineActive, Bool.eq_iff_iff, List.any_eq_true, List.any_eq_true]
  refine exists_congr fun p => and_congr_right fun hp => ?_
  have hcovers := covers_eq_of_mem ha hb hat htb (Sequence.mem_ttlPulses.mp hp)
  change covers timing p.start p.finish a = covers timing p.start p.finish t at hcovers
  rw [hcovers]

/-- No DDS event begins or ends inside a column. -/
lemma ddsActive_eq (c : UInt8) : ddsActive s timing c a = ddsActive s timing c t := by
  rw [ddsActive, ddsActive, Bool.eq_iff_iff, List.any_eq_true, List.any_eq_true]
  refine exists_congr fun e => and_congr_right fun he => ?_
  have hcovers := covers_eq_of_mem ha hb hat htb (Sequence.mem_ddsEvents.mp he)
  change covers timing e.start e.finish a = covers timing e.start e.finish t at hcovers
  rw [hcovers]

end

/-! ## The grid of a sequence -/

/-- The grid of a sequence whose ticks can be counted. -/
lemma ofSequence_of_totalTicks (h : s.totalTicks timing = .ok total) (registry : Registry) :
    ofSequence s registry timing = .ok {
      times := (boundaries s timing total).map (· * timing.resolution)
      labels := registry.channels.map (·.name) ++ registry.dds.map (·.name)
      cells :=
        registry.channels.map (fun c =>
          (boundaries s timing total).dropLast.map (lineActive s timing c.index)) ++
        registry.dds.map (fun d =>
          (boundaries s timing total).dropLast.map (ddsActive s timing d.index)) } := by
  rw [ofSequence, h]
  rfl

/-- A grid has a row per label, and each row a cell per column. -/
structure Rectangular (g : Grid) : Prop where
  rows : g.cells.length = g.labels.length
  columns : ∀ row ∈ g.cells, row.length + 1 = g.times.length

/-- Every grid has a row per label, and each row a cell per column. -/
lemma rectangular_of_ofSequence {registry : Registry} {g : Grid}
    (h : ofSequence s registry timing = .ok g) : g.Rectangular := by
  obtain ⟨total, -, h⟩ := Result.bind_eq_ok.mp h
  cases h
  refine ⟨by simp, fun row hrow => ?_⟩
  have hlength : row.length = (boundaries s timing total).dropLast.length := by
    rcases List.mem_append.mp hrow with hrow | hrow
    · obtain ⟨c, _, rfl⟩ := List.mem_map.mp hrow
      exact List.length_map _
    · obtain ⟨d, _, rfl⟩ := List.mem_map.mp hrow
      exact List.length_map _
  have hne : boundaries s timing total ≠ [] :=
    List.ne_nil_of_mem (mem_boundaries.mpr (.inl rfl))
  rw [hlength, List.length_dropLast, List.length_map]
  exact Nat.succ_pred (List.length_eq_zero_iff.not.mpr hne)

/-- A column lies before the last boundary. -/
lemma column?_lt {nanos column : Nat} {times : List Nat} (h : column? nanos times = some column) :
    column + 1 < times.length := by
  induction times generalizing column with
  | nil => cases h
  | cons a times ih =>
    cases times with
    | nil => cases h
    | cons b rest =>
      unfold column? at h
      split at h
      · cases h
        simp
      · obtain ⟨column', h', rfl⟩ := Option.map_eq_some_iff.mp h
        exact Nat.succ_lt_succ (ih h')

/-- Every label has a cell in every column. -/
lemma Rectangular.exists_cell {g : Grid} (h : g.Rectangular) {label : String}
    {nanos row column : Nat} (hrow : g.labels.findIdx? (· == label) = some row)
    (hcolumn : column? nanos g.times = some column) :
    ∃ b, g.cells[row]?.bind (·[column]?) = some b := by
  obtain ⟨hlt, -⟩ := List.findIdx?_eq_some_iff_getElem.mp hrow
  have hrows : row < g.cells.length := h.rows ▸ hlt
  have hcells : g.cells[row]? = some g.cells[row] := List.getElem?_eq_getElem hrows
  have hlength := h.columns _ (List.getElem_mem hrows)
  have hwithin := column?_lt hcolumn
  rw [hcells]
  exact ⟨_, List.getElem?_eq_getElem (by omega)⟩

end PulseSequencer.Grid
