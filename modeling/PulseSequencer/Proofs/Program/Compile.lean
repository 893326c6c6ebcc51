import PulseSequencer.Program.Compile
import PulseSequencer.Proofs.Program.Decoding
import PulseSequencer.Proofs.Result

/-!
# What a successful compilation consists of

A program that was compiled is made of a TTL section and a DDS section. These lemmas say what the
sections are, record by record, without opening the compiler again.

* `Compiled`: the sections of a compiled program, and `Compiled.of_compile`, that there are some;
  `Compiled.compile_eq_ok` is the way back.
* `TtlEntry.Written`: a record holds a tick and a mask.
* `compileTtl_written`: the records of the TTL section are those of the sweep over the edges.
* `Compiled.ttlRecords`, `Compiled.ddsRecords`: both sections are read back from the program.
-/

namespace PulseSequencer

/-- The sections that a program was made of, and the checks that it passed. -/
structure Compiled (s : Sequence) (registry : Registry) (timing : Timing) (p : Program)
    (ttl : List TtlRecord) (dds : List DdsRecord) : Prop where
  length_le : s.declaredLength ≤ timing.maxLength
  total : s.totalTicks timing = .ok p.totalTicks
  total_ne : p.totalTicks ≠ 0
  ttlSection : compileTtl s.ttlPulses timing p.totalTicks = .ok ttl
  ddsSection : compileDds s registry timing = .ok dds
  words : p.words = Program.ofRecords ttl dds

/-- A compiled program has its two sections. -/
lemma Compiled.of_compile {s : Sequence} {registry : Registry} {timing : Timing} {p : Program}
    (h : compile s registry timing = .ok p) : ∃ ttl dds, Compiled s registry timing p ttl dds := by
  unfold compile at h
  obtain ⟨hlen, h⟩ := Result.unless_eq_ok.mp h
  obtain ⟨total, htotal, h⟩ := Result.bind_eq_ok.mp h
  obtain ⟨hne, h⟩ := Result.unless_eq_ok.mp h
  obtain ⟨ttl, httl, h⟩ := Result.bind_eq_ok.mp h
  obtain ⟨dds, hdds, h⟩ := Result.bind_eq_ok.mp h
  cases h
  exact ⟨ttl, dds, Nat.le_of_not_lt hlen, htotal, hne, httl, hdds, rfl⟩

/-- Two sections that pass the checks make up a compiled program. -/
lemma Compiled.compile_eq_ok {s : Sequence} {registry : Registry} {timing : Timing} {p : Program}
    {ttl : List TtlRecord} {dds : List DdsRecord} (h : Compiled s registry timing p ttl dds) :
    compile s registry timing = .ok p := by
  unfold compile
  refine Result.unless_eq_ok.mpr ⟨Nat.not_lt_of_le h.length_le, ?_⟩
  refine Result.bind_eq_ok.mpr ⟨p.totalTicks, h.total, ?_⟩
  refine Result.unless_eq_ok.mpr ⟨h.total_ne, ?_⟩
  refine Result.bind_eq_ok.mpr ⟨ttl, h.ttlSection, ?_⟩
  refine Result.bind_eq_ok.mpr ⟨dds, h.ddsSection, ?_⟩
  rw [← h.words]
  rfl

/-! ## The TTL section -/

/-- A tick that a word has room for is written as it is. -/
lemma toNat_of_tickWord {timing : Timing} {tick : Nat} {w : Word}
    (h : tickWord timing tick = .ok w) : w.toNat = tick := by
  unfold tickWord at h
  split at h
  case isTrue hlt =>
    cases h
    exact (BitVec.toNat_ofNat tick 32).trans (Nat.mod_eq_of_lt hlt)
  case isFalse => cases h

/-- The record `r` holds the tick and the mask of an entry. -/
def TtlEntry.Written (entry : Nat × Word) (r : TtlRecord) : Prop :=
  r.tick.toNat = entry.1 ∧ r.mask = entry.2

/-- The entries of the sweep over the edges: the mask at tick 0, its changes, and low at the end. -/
def Edge.entries (edges : List Edge) (total : Nat) : List (Nat × Word) :=
  (0, Edge.mask edges 0) ::
    maskChanges (Edge.mask edges) (Edge.mask edges 0) (Edge.ticksWithin edges total) ++ [(total, 0)]

/-- The records of the TTL section hold the entries of the sweep. -/
lemma compileTtl_written {pulses : List TtlPulse} {timing : Timing} {total : Nat}
    {ttl : List TtlRecord} (h : compileTtl pulses timing total = .ok ttl) :
    List.Forall₂ TtlEntry.Written (Edge.entries (Edge.ofPulses timing pulses) total) ttl := by
  unfold compileTtl at h
  split at h
  case isTrue =>
    refine (Result.forall₂_of_mapM h).imp fun entry r hr => ?_
    obtain ⟨w, hw, rfl⟩ := Result.map_eq_ok.mp hr
    exact ⟨toNat_of_tickWord hw, rfl⟩
  case isFalse => cases h

/-- The ticks of the changes of a mask are among those that were looked at. -/
lemma mem_ticks_of_mem_maskChanges {mask : Nat → Word} {previous : Word} {ticks : List Nat}
    {entry : Nat × Word} (h : entry ∈ maskChanges mask previous ticks) : entry.1 ∈ ticks := by
  induction ticks generalizing previous with
  | nil => cases h
  | cons tick rest ih =>
    unfold maskChanges at h
    split at h
    case isTrue => exact List.mem_cons_of_mem _ (ih h)
    case isFalse =>
      cases h with
      | head => exact List.mem_cons_self
      | tail _ h => exact List.mem_cons_of_mem _ (ih h)

/-- The ticks within a sequence lie after its first tick and before its end. -/
lemma Edge.mem_ticksWithin {edges : List Edge} {total t : Nat} :
    t ∈ Edge.ticksWithin edges total ↔ (∃ e ∈ edges, e.tick = t) ∧ 0 < t ∧ t < total := by
  simp [Edge.ticksWithin, List.mem_mergeSort]

/-- The ticks within a sequence are in order. -/
lemma Edge.ticksWithin_sorted (edges : List Edge) (total : Nat) :
    (Edge.ticksWithin edges total).Pairwise (· ≤ ·) := by
  refine (List.pairwise_mergeSort ?_ ?_ _).imp fun h => of_decide_eq_true h
  · intro a b c hab hbc
    exact decide_eq_true (Nat.le_trans (of_decide_eq_true hab) (of_decide_eq_true hbc))
  · intro a b
    simpa using Nat.le_total a b

/-- The end of the TTL section can be seen: of its records only the first stands at tick 0. -/
lemma ttlSection_of_compileTtl {pulses : List TtlPulse} {timing : Timing} {total : Nat}
    {ttl : List TtlRecord} (h : compileTtl pulses timing total = .ok ttl) (hne : total ≠ 0) :
    TtlSection ttl := by
  have nonzero : ∀ entry ∈ maskChanges (Edge.mask (Edge.ofPulses timing pulses))
      (Edge.mask (Edge.ofPulses timing pulses) 0)
      (Edge.ticksWithin (Edge.ofPulses timing pulses) total) ++ [(total, 0)], entry.1 ≠ 0 := by
    intro entry hentry
    rcases List.mem_append.mp hentry with hchange | hlast
    · have htick := mem_ticks_of_mem_maskChanges hchange
      exact Nat.pos_iff_ne_zero.mp (Edge.mem_ticksWithin.mp htick).2.1
    · cases List.mem_singleton.mp hlast
      exact hne
  cases compileTtl_written h with
  | cons first rest =>
    intro r hr hzero
    obtain ⟨entry, hentry, hw⟩ := Result.exists_of_mem_right rest hr
    apply nonzero entry hentry
    rw [← hw.1, hzero]
    rfl

/-! ## Reading the sections back -/

section
variable {s : Sequence} {registry : Registry} {timing : Timing} {p : Program}
  {ttl : List TtlRecord} {dds : List DdsRecord}

/-- The TTL section is read back. -/
lemma Compiled.ttlRecords (h : Compiled s registry timing p ttl dds) : p.ttlRecords = ttl := by
  have hsection := ttlSection_of_compileTtl h.ttlSection h.total_ne
  have hp : p = ⟨Program.ofRecords ttl dds, p.totalTicks⟩ := by rw [← h.words]
  rw [hp, Program.ttlRecords_ofRecords hsection]

/-- The DDS section is read back, as far as its word of length can count. -/
lemma Compiled.ddsRecords (h : Compiled s registry timing p ttl dds) :
    p.ddsRecords = dds.take (dds.length % Word.count) := by
  have hsection := ttlSection_of_compileTtl h.ttlSection h.total_ne
  have hp : p = ⟨Program.ofRecords ttl dds, p.totalTicks⟩ := by rw [← h.words]
  rw [hp, Program.ddsRecords_ofRecords hsection]

end

end PulseSequencer
