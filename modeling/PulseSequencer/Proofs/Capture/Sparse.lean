import PulseSequencer.Capture
import PulseSequencer.Proofs.Result

/-!
# The sparse form of a capture

Nothing is lost in the sparse form of a run of bytes: expanded, it gives the same bytes. Whoever
writes down hits in another way, out of order, more than once for a place or with a value of zero,
gets bytes as well, as long as the hits lie within the length. The sparse form of these bytes is
then the one way to write them with growing places and without zeros.

* `Capture.writeAll`, `Capture.last?`: hits written one after the other, and the value of the last
  one at a place.
* `Capture.expand_eq_ok`: which captures can be expanded, and to what.
* `Capture.Canonical`, `Capture.Tidied`: hits with growing places and without zeros, and what is
  left of a capture in this form.
* `Capture.sparse_round_trip`: both directions; `Capture.untidy_hits` is a case of it.
-/

namespace PulseSequencer.Capture

variable {bytes : List Byte} {hits : List (Nat × Byte)} {c c' : Capture} {i : Nat} {v : Byte}

/-! ## From hits to bytes -/

/-- Writes hits one after the other; one that lies beyond the bytes has no effect. -/
def writeAll (bytes : List Byte) (hits : List (Nat × Byte)) : List Byte :=
  hits.foldl (fun bytes hit => bytes.set hit.1 hit.2) bytes

/-- The value of the last hit at a place, if there is one. -/
def last? (i : Nat) : List (Nat × Byte) → Option Byte
  | [] => none
  | (j, v) :: rest => (last? i rest).or (if j = i then some v else none)

/-- The last value at a place is looked for in later hits first. -/
lemma last?_cons (i : Nat) (hit : Nat × Byte) (rest : List (Nat × Byte)) :
    last? i (hit :: rest) = (last? i rest).or (if hit.1 = i then some hit.2 else none) := rfl

/-- Hits change no length. -/
lemma length_writeAll (bytes : List Byte) (hits : List (Nat × Byte)) :
    (writeAll bytes hits).length = bytes.length := by
  induction hits generalizing bytes with
  | nil => rfl
  | cons hit rest ih => exact (ih _).trans List.length_set

/-- At each place the last hit stays, or the byte from before if there is none. -/
lemma getElem?_writeAll (bytes : List Byte) (hits : List (Nat × Byte)) (i : Nat) :
    (writeAll bytes hits)[i]? = bytes[i]?.map fun b => (last? i hits).getD b := by
  induction hits generalizing bytes with
  | nil => exact Option.map_id'.symm
  | cons hit rest ih =>
    refine (ih (bytes.set hit.1 hit.2)).trans ?_
    rw [last?_cons]
    by_cases hi : hit.1 = i
    · rw [if_pos hi, ← hi, List.getElem?_set_self']
      cases bytes[hit.1]? <;> cases last? hit.1 rest <;> rfl
    · rw [if_neg hi, List.getElem?_set_ne hi, Option.or_none]

/-- Hits within the bytes are written, and one beyond them traps. -/
lemma overwrite_eq (bytes : List Byte) (hits : List (Nat × Byte)) :
    overwrite bytes hits =
      if ∀ hit ∈ hits, hit.1 < bytes.length then .ok (writeAll bytes hits)
      else .error (.trap .outOfBounds) := by
  induction hits generalizing bytes with
  | nil => rfl
  | cons hit rest ih =>
    unfold overwrite
    by_cases hlt : hit.1 < bytes.length
    · simp only [ih, List.length_set, List.forall_mem_cons, hlt, true_and]
      rfl
    · rw [if_neg hlt, if_neg fun hall => hlt (hall hit List.mem_cons_self)]

/-- A capture can be expanded exactly if its hits lie within its length. They are written over
zeros. -/
lemma expand_eq_ok : c.expand = .ok bytes ↔
    (∀ hit ∈ c.hits, hit.1 < c.length) ∧ writeAll (List.replicate c.length 0) c.hits = bytes := by
  rw [expand, overwrite_eq, List.length_replicate]
  split
  case isTrue hall =>
    rw [Except.ok.injEq]
    exact (and_iff_right hall).symm
  case isFalse hall => exact iff_of_false nofun fun h => hall h.1

/-- The bytes of a capture: at each place within its length the value of the last hit, or zero. -/
lemma getElem?_of_expand (h : c.expand = .ok bytes) (i : Nat) :
    bytes[i]? = if i < c.length then some ((last? i c.hits).getD 0) else none := by
  rw [← (expand_eq_ok.mp h).2, getElem?_writeAll, List.getElem?_replicate]
  split <;> rfl

/-- An expanded capture is as long as it says. -/
lemma length_of_expand (h : c.expand = .ok bytes) : bytes.length = c.length := by
  rw [← (expand_eq_ok.mp h).2, length_writeAll, List.length_replicate]

/-! ## From bytes to hits -/

/-- The hits are the bytes that are not zero, each with its place. -/
lemma hitsFrom_eq (n : Nat) (bytes : List Byte) :
    hitsFrom n bytes = ((bytes.zipIdx n).filter fun p => p.1 ≠ 0).map Prod.swap := by
  induction bytes generalizing n with
  | nil => rfl
  | cons b rest ih =>
    unfold hitsFrom
    rw [ih, List.zipIdx_cons, List.filter_cons]
    by_cases hb : b = 0 <;> simp [hb]

/-- The hits of a run of bytes are its non-zero bytes with their places. -/
lemma mem_ofBytes : (i, v) ∈ (ofBytes bytes).hits ↔ bytes[i]? = some v ∧ v ≠ 0 := by
  simp [ofBytes, hitsFrom_eq, List.mem_zipIdx_iff_getElem?]

/-- The places of the hits grow from one to the next, and none of their values is zero. -/
structure Canonical (c : Capture) : Prop where
  increasing : c.hits.Pairwise fun a b => a.1 < b.1
  nonzero : ∀ hit ∈ c.hits, hit.2 ≠ 0

/-- The sparse form of bytes is canonical. -/
lemma canonical_ofBytes (bytes : List Byte) : (ofBytes bytes).Canonical := by
  constructor
  · have places : (bytes.zipIdx 0).Pairwise fun a b => a.2 < b.2 := by
      rw [← List.pairwise_map, List.zipIdx_map_snd]
      exact List.pairwise_lt_range'
    rw [ofBytes, hitsFrom_eq, List.pairwise_map]
    exact places.filter _
  · exact fun hit hhit => (mem_ofBytes.mp hhit).2

/-! ## The hits that are left -/

/-- The last value at a place is that of a hit. -/
lemma mem_of_last? (h : last? i hits = some v) : (i, v) ∈ hits := by
  induction hits with
  | nil => cases h
  | cons hit rest ih =>
    rw [last?_cons, Option.or_eq_some_iff] at h
    rcases h with h | ⟨-, h⟩
    · exact List.mem_cons_of_mem _ (ih h)
    · split at h
      case isTrue hi =>
        cases h
        cases hi
        exact List.mem_cons_self
      case isFalse => cases h

/-- If the places grow, a hit is the last one at its place. -/
lemma last?_eq_some_iff (h : hits.Pairwise fun a b => a.1 < b.1) :
    last? i hits = some v ↔ (i, v) ∈ hits := by
  refine ⟨mem_of_last?, fun hmem => ?_⟩
  induction hits with
  | nil => cases hmem
  | cons hit rest ih =>
    obtain ⟨hfirst, hrest⟩ := List.pairwise_cons.mp h
    rw [last?_cons]
    rcases List.mem_cons.mp hmem with rfl | hmem
    · cases hlast : last? i rest with
      | none => rw [if_pos rfl, Option.none_or]
      | some w => exact absurd (hfirst _ (mem_of_last? hlast)) (Nat.lt_irrefl i)
    · rw [ih hrest hmem, Option.some_or]

/-- What is left of the hits of `c`: for each place the value of the last one, unless it is zero, in
the order of places. -/
structure Tidied (c c' : Capture) : Prop where
  length : c'.length = c.length
  canonical : c'.Canonical
  mem : ∀ i v, (i, v) ∈ c'.hits ↔ last? i c.hits = some v ∧ v ≠ 0

/-- The sparse form of an expanded capture is its tidied form. -/
lemma tidied_of_expand (h : c.expand = .ok bytes) : c.Tidied (ofBytes bytes) where
  length := length_of_expand h
  canonical := canonical_ofBytes bytes
  mem i v := by
    rw [mem_ofBytes, getElem?_of_expand h]
    refine and_congr_left fun hv => ?_
    constructor
    · intro hget
      split at hget
      case isTrue =>
        cases hlast : last? i c.hits with
        | none =>
          rw [hlast] at hget
          exact absurd (Option.some.inj hget).symm hv
        | some w =>
          rw [hlast] at hget
          exact hget
      case isFalse => cases hget
    · intro hlast
      rw [if_pos ((expand_eq_ok.mp h).1 _ (mem_of_last? hlast)), hlast]
      rfl

/-- A capture has only one tidied form, and a canonical one is its own. -/
lemma Tidied.eq_iff (h : c.Tidied c') : c' = c ↔ c.Canonical := by
  refine ⟨fun heq => heq ▸ h.canonical, fun hc => ?_⟩
  have antisymm : Std.Antisymm fun a b : Nat × Byte => a.1 < b.1 :=
    ⟨fun _ _ hab hba => absurd hab (Nat.lt_asymm hba)⟩
  have irrefl : Std.Irrefl fun a b : Nat × Byte => a.1 < b.1 := ⟨fun _ => Nat.lt_irrefl _⟩
  have hits : c'.hits = c.hits := by
    refine h.canonical.increasing.eq_of_mem_iff hc.increasing fun ⟨i, v⟩ => ?_
    rw [h.mem, last?_eq_some_iff hc.increasing, and_iff_left_iff_imp]
    exact hc.nonzero _
  cases c
  cases c'
  cases h.length
  cases hits
  rfl

/-! ## Both directions -/

/-- Expanding the sparse form of bytes gives the bytes back. -/
lemma expand_ofBytes (bytes : List Byte) : (ofBytes bytes).expand = .ok bytes := by
  have within : ∀ hit ∈ (ofBytes bytes).hits, hit.1 < bytes.length := fun hit hhit =>
    (List.getElem?_eq_some_iff.mp (mem_ofBytes.mp hhit).1).1
  have increasing := (canonical_ofBytes bytes).increasing
  refine expand_eq_ok.mpr ⟨within, List.ext_getElem? fun i => ?_⟩
  rw [getElem?_writeAll, List.getElem?_replicate]
  show (if i < bytes.length then some 0 else none).map _ = _
  split
  case isTrue hi =>
    have hget := List.getElem?_eq_getElem hi
    rw [hget]
    by_cases hzero : bytes[i] = 0
    · -- no hit stands for a zero, so the place keeps the one that it began with
      cases hlast : last? i (ofBytes bytes).hits with
      | none => rw [hzero]; rfl
      | some w =>
        obtain ⟨hw, hne⟩ := mem_ofBytes.mp (mem_of_last? hlast)
        rw [hget, hzero, Option.some.injEq] at hw
        exact absurd hw.symm hne
    · have hlast := (last?_eq_some_iff increasing).mpr (mem_ofBytes.mpr ⟨hget, hzero⟩)
      rw [hlast]
      rfl
  case isFalse hi => exact (List.getElem?_eq_none (Nat.le_of_not_lt hi)).symm

/-- A run of bytes comes back from its sparse form. A capture can be expanded exactly if its hits
lie within its length, and the sparse form of its bytes is then the capture itself exactly if its
places grow and none of its values is zero. In any case it is what is left of the hits: for each
place the last one, unless its value is zero. -/
theorem sparse_round_trip :
    (∀ bytes : List Byte, (ofBytes bytes).expand = .ok bytes) ∧
      ∀ c : Capture,
        ((∃ bytes, c.expand = .ok bytes) ↔ ∀ hit ∈ c.hits, hit.1 < c.length) ∧
          ∀ bytes, c.expand = .ok bytes →
            (ofBytes bytes = c ↔ c.Canonical) ∧ c.Tidied (ofBytes bytes) := by
  refine ⟨expand_ofBytes, fun c => ⟨?_, fun bytes h => ?_⟩⟩
  · simp only [expand_eq_ok, exists_and_left, exists_eq', and_true]
  · have tidied := tidied_of_expand h
    exact ⟨tidied.eq_iff, tidied⟩

/-- Hits out of order, two of them at one place and one of value zero. -/
def untidy : Capture := ⟨5, [(3, 7), (1, 0), (3, 9), (0, 2)]⟩

/-- Such a capture can be expanded, but its bytes have another sparse form. -/
theorem untidy_hits :
    untidy.expand = .ok [2, 0, 0, 9, 0] ∧ ofBytes [2, 0, 0, 9, 0] = ⟨5, [(0, 2), (3, 9)]⟩ ∧
      ¬untidy.Canonical ∧ untidy.Tidied ⟨5, [(0, 2), (3, 9)]⟩ := by
  have hexpand : untidy.expand = .ok [2, 0, 0, 9, 0] := rfl
  have hsparse : ofBytes [2, 0, 0, 9, 0] = ⟨5, [(0, 2), (3, 9)]⟩ := by decide
  obtain ⟨hiff, tidied⟩ := (sparse_round_trip.2 untidy).2 _ hexpand
  rw [hsparse] at hiff tidied
  exact ⟨hexpand, hsparse, fun hc => absurd (hiff.mpr hc) (by decide), tidied⟩

end PulseSequencer.Capture
