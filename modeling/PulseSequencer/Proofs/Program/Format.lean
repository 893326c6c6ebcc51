import PulseSequencer.Proofs.Word
import PulseSequencer.Proofs.Program.Synthesis

/-!
# The format of a program

From the bytes on the pipe a program is read back record by record. Nothing tells the length of its
TTL section: the section ends at the first pair of zeros, and the ticks of the sweep see to it that
no record is taken for that pair.

* `Edge.Turn`, `Edge.isChain_changes`: each entry of the sweep turns the mask at a later tick.
* `TtlRecord.Sweep`: the ticks and the end of a TTL section; `sweep_of_compileTtl`, that a compiled
  section is one.
* `Program.ZerosAt`: a pair of zeros; `Program.isLeast_zerosAt`, where the first one stands.
* `format_round_trip`: a compiled program, from its bytes to its records;
  `silent_lines_come_back` is a case of it.
-/

namespace PulseSequencer

/-- A TTL section: the first record stands at tick 0, the ticks grow from record to record, and the
last record stands at the end with every line low. -/
structure TtlRecord.Sweep (total : Nat) (records : List TtlRecord) : Prop where
  first : records.head?.map TtlRecord.tick = some 0
  later : ∀ r ∈ records.tail, r.tick ≠ 0
  increasing : records.Pairwise fun a b => a.tick < b.tick
  last : ∃ r, records.getLast? = some r ∧ r.tick.toNat = total ∧ r.mask = 0

/-! ## The ticks of a sweep -/

namespace Edge

/-- An entry stands at a later tick than the one before it and has another mask. -/
def Turn (a b : Nat × Word) : Prop := a.1 < b.1 ∧ a.2 ≠ b.2

section
variable {mask : Nat → Word} {u : Nat} {w : Word} {entries : List (Nat × Word)}

/-- The entry that comes first may be moved to an earlier tick. -/
lemma isChain_turn_of_le {x : Nat} (hux : u ≤ x) (h : ((x, w) :: entries).IsChain Turn) :
    ((u, w) :: entries).IsChain Turn := by
  cases entries with
  | nil => exact .singleton _
  | cons entry rest =>
    obtain ⟨hturn, hrest⟩ := List.isChain_cons_cons.mp h
    exact .cons_cons ⟨Nat.lt_of_le_of_lt hux hturn.1, hturn.2⟩ hrest

/-- The changes of a mask turn it, from a tick `u` on at which it was known: a tick that was looked
at twice shows no second change. -/
lemma isChain_maskChanges {ticks : List Nat} (sorted : (u :: ticks).Pairwise (· ≤ ·)) :
    ((u, mask u) :: maskChanges mask (mask u) ticks).IsChain Turn := by
  induction ticks generalizing u with
  | nil => exact .singleton _
  | cons x rest ih =>
    obtain ⟨hfirst, hrest⟩ := List.pairwise_cons.mp sorted
    have hux := hfirst x List.mem_cons_self
    have chain := ih hrest
    unfold maskChanges
    split
    case isTrue heq =>
      rw [heq] at chain
      exact isChain_turn_of_le hux chain
    case isFalse hne =>
      -- an equal tick would show the same mask
      have hlt : u < x := Nat.lt_of_le_of_ne hux fun heq => hne (heq ▸ rfl)
      exact .cons_cons ⟨hlt, fun heq => hne heq.symm⟩ chain

end

/-- The changes of the mask after tick 0 and before the end. -/
def changes (edges : List Edge) (total : Nat) : List (Nat × Word) :=
  maskChanges (mask edges) (mask edges 0) (ticksWithin edges total)

section
variable (edges : List Edge) {total : Nat}

/-- The entries are the changes of the mask, from tick 0 on, and the end. -/
lemma entries_eq :
    entries edges total = ((0, mask edges 0) :: changes edges total) ++ [(total, 0)] := rfl

/-- From tick 0 on, ticks grow and masks change from entry to entry. -/
lemma isChain_changes : ((0, mask edges 0) :: changes edges total).IsChain Turn :=
  isChain_maskChanges
    (List.pairwise_cons.mpr ⟨fun _ _ => Nat.zero_le _, ticksWithin_sorted edges total⟩)

/-- The changes stand before the end. -/
lemma lt_of_mem_changes : ∀ entry ∈ changes edges total, entry.1 < total := fun _ hentry =>
  (mem_ticksWithin.mp (mem_ticks_of_mem_maskChanges hentry)).2.2

/-- Ticks grow from entry to entry. -/
lemma entries_increasing (htotal : total ≠ 0) :
    (entries edges total).Pairwise fun a b => a.1 < b.1 := by
  have before : ((0, mask edges 0) :: changes edges total).Pairwise fun a b => a.1 < b.1 := by
    rw [← List.pairwise_map (f := Prod.fst) (R := (· < ·)), ← List.isChain_iff_pairwise,
      List.isChain_map]
    exact (isChain_changes edges).imp fun _ _ hturn => hturn.1
  rw [entries_eq, List.pairwise_append]
  refine ⟨before, List.pairwise_singleton _ _, fun entry hentry last hlast => ?_⟩
  cases List.mem_singleton.mp hlast
  rcases List.mem_cons.mp hentry with rfl | hentry
  · exact Nat.pos_of_ne_zero htotal
  · exact lt_of_mem_changes edges entry hentry

end

end Edge

/-- A compiled TTL section is a sweep. -/
lemma sweep_of_compileTtl {pulses : List TtlPulse} {timing : Timing} {total : Nat}
    {ttl : List TtlRecord} (h : compileTtl pulses timing total = .ok ttl) (htotal : total ≠ 0) :
    TtlRecord.Sweep total ttl := by
  have written := compileTtl_written h
  -- ticks fit into a word, so they grow in the records as they do in the entries
  have increasing : ttl.Pairwise fun a b => a.tick < b.tick := by
    apply Result.pairwise_of_forall₂ written (Edge.entries_increasing _ htotal)
    intro entry r entry' r' hr hr' hlt
    rw [BitVec.lt_def, hr.1, hr'.1]
    exact hlt
  have hlast := Result.rel_getLast? written
  rw [Edge.entries, List.getLast?_append, List.getLast?_singleton, Option.some_or] at hlast
  cases hget : ttl.getLast? with
  | none =>
    rw [hget] at hlast
    cases hlast
  | some last =>
    rw [hget] at hlast
    cases hlast with
    | some hlast =>
      cases ttl with
      | nil => cases hget
      | cons first rest =>
        have hfirst : first.tick = 0 := by
          cases written with
          | cons hfirst _ => exact BitVec.eq_of_toNat_eq hfirst.1
        exact ⟨congrArg some hfirst, ttlSection_of_compileTtl h htotal, increasing, last, hget,
          hlast⟩

/-! ## The end of the TTL section -/

namespace Program

/-- Two zeros stand in a list of words, one at a place and one at the next. -/
def ZerosAt (words : List Word) (i : Nat) : Prop := words[i]? = some 0 ∧ words[i + 1]? = some 0

/-- The words of a record stand at twice its place. -/
lemma getElem?_ttlWords (ttl : List TtlRecord) (j : Nat) :
    (ttl.flatMap TtlRecord.words)[2 * j]? = ttl[j]?.map TtlRecord.tick ∧
      (ttl.flatMap TtlRecord.words)[2 * j + 1]? = ttl[j]?.map TtlRecord.mask := by
  induction ttl generalizing j with
  | nil => exact ⟨rfl, rfl⟩
  | cons r rest ih =>
    cases j with
    | zero => exact ⟨rfl, rfl⟩
    | succ j => exact ih j

/-- A TTL record has two words. -/
lemma length_ttlWords (ttl : List TtlRecord) :
    (ttl.flatMap TtlRecord.words).length = 2 * ttl.length := by
  induction ttl with
  | nil => rfl
  | cons r rest ih =>
    rw [List.flatMap_cons, List.length_append, ih, List.length_cons]
    simp only [TtlRecord.words, List.length_cons, List.length_nil]
    omega

/-- A DDS record has four words. -/
lemma length_ddsWords (dds : List DdsRecord) :
    (dds.flatMap DdsRecord.words).length = 4 * dds.length := by
  induction dds with
  | nil => rfl
  | cons r rest ih =>
    rw [List.flatMap_cons, List.length_append, ih, List.length_cons]
    simp only [DdsRecord.words, List.length_cons, List.length_nil]
    omega

/-- A program has the words of its records, and three between the sections and at the end. -/
lemma length_ofRecords (ttl : List TtlRecord) (dds : List DdsRecord) :
    (ofRecords ttl dds).length = 2 * ttl.length + 3 + 4 * dds.length := by
  rw [ofRecords, List.length_append, List.length_append, length_ttlWords, length_ddsWords]
  rfl

/-- After the first record the first pair of zeros, counted in pairs of words, is the one that ends
the TTL section, whatever the DDS section holds. -/
lemma isLeast_zerosAt {ttl : List TtlRecord} (h : TtlSection ttl) (dds : List DdsRecord) :
    IsLeast {i | 2 ≤ i ∧ Even i ∧ ZerosAt (ofRecords ttl dds) i} (2 * ttl.length) := by
  have hlength := length_ttlWords ttl
  have behind (k : Nat) : (ofRecords ttl dds)[2 * ttl.length + k]? =
      ([0, 0, BitVec.ofNat 32 dds.length] ++ dds.flatMap DdsRecord.words)[k]? := by
    rw [ofRecords, List.append_assoc, ← hlength,
      List.getElem?_append_right (Nat.le_add_right _ k), Nat.add_sub_cancel_left]
  cases ttl with
  | nil => exact h.elim
  | cons first rest =>
    refine ⟨⟨by simp, even_two_mul _, behind 0, behind 1⟩, ?_⟩
    rintro i ⟨htwo, ⟨j, rfl⟩, hzero, _⟩
    by_contra hlt
    -- a place before that is the tick of a record behind the first one
    rw [ofRecords, List.append_assoc, ← Nat.two_mul, List.getElem?_append_left (by omega),
      (getElem?_ttlWords _ j).1] at hzero
    obtain ⟨r, hr, htick⟩ := Option.map_eq_some_iff.mp hzero
    obtain ⟨j, rfl⟩ := Nat.exists_eq_succ_of_ne_zero (n := j) (by omega)
    exact h r (List.mem_of_getElem? hr) htick

end Program

/-- A program that was compiled under any timing, for fewer than `2 ^ 31` entries: its bytes are
read back as its words, and its words as the records that its two sections were made of. The TTL
section is a sweep, and its end is the first pair of zeros that can be taken for it. -/
theorem format_round_trip {s : Sequence} {registry : Registry} {timing : Timing} {p : Program}
    (hfew : s.events.length < 2147483648) (h : compile s registry timing = .ok p) :
    ∃ ttl dds, compileTtl s.ttlPulses timing p.totalTicks = .ok ttl ∧
      compileDds s registry timing = .ok dds ∧
      p.bytes.length = 4 * p.words.length ∧ Word.readAll Word.ofPipe p.bytes = p.words ∧
      p.ttlRecords = ttl ∧ p.ddsRecords = dds ∧
      p.words.length = 2 * ttl.length + 3 + 4 * dds.length ∧
      IsLeast {i | 2 ≤ i ∧ Even i ∧ Program.ZerosAt p.words i} (2 * ttl.length) ∧
      TtlRecord.Sweep p.totalTicks ttl := by
  obtain ⟨ttl, dds, hp⟩ := Compiled.of_compile h
  -- the length of the DDS section is kept in one word
  have hdds : dds.length < Word.count := by
    have hrecords := length_compileDds_le hp.ddsSection
    have hevents : s.ddsEvents.length ≤ s.events.length := List.length_filterMap_le _ _
    unfold Word.count
    omega
  refine ⟨ttl, dds, hp.ttlSection, hp.ddsSection, Word.length_toPipe _, Word.readAll_toPipe _,
    hp.ttlRecords, ?_, ?_, ?_, sweep_of_compileTtl hp.ttlSection hp.total_ne⟩
  · rw [hp.ddsRecords, Nat.mod_eq_of_lt hdds, List.take_length]
  · rw [hp.words, Program.length_ofRecords]
  · rw [hp.words]
    exact Program.isLeast_zerosAt (ttlSection_of_compileTtl hp.ttlSection hp.total_ne) dds

/-- Without a pulse a program begins with two zeros. They are its first record and not its end. -/
theorem silent_lines_come_back :
    narrowGap.events.length < 2147483648 ∧
      ∃ p, compile narrowGap coolingRegistry ⟨40, 10000⟩ = .ok p ∧ Program.ZerosAt p.words 0 ∧
        p.ttlRecords = [⟨0, 0⟩, ⟨20, 0⟩] ∧ p.ddsRecords.length = 3 ∧ p.words.length = 19 ∧
        Word.readAll Word.ofPipe p.bytes = p.words ∧
        IsLeast {i | 2 ≤ i ∧ Even i ∧ Program.ZerosAt p.words i} 4 := by
  obtain ⟨p, hp⟩ := compile_narrowGap
  obtain ⟨ttl, dds, httl, hdds, _, hwords, hread, hread', hlength, hend, _⟩ :=
    format_round_trip (by decide) hp
  obtain ⟨_, _, compiled⟩ := Compiled.of_compile hp
  have htotal : p.totalTicks = 20 := Except.ok.inj (compiled.total.symm.trans rfl)
  rw [htotal, compileTtl_narrowGap] at httl
  cases httl
  have hzeros : Program.ZerosAt p.words 0 := by
    rw [compiled.words, ← compiled.ttlRecords, hread]
    exact ⟨rfl, rfl⟩
  have hthree : dds.length = 3 := by
    rw [← (Result.forall₂_of_mapM hdds).length_eq, narrowGap_transitions]
    rfl
  exact ⟨by decide, p, hp, hzeros, hread, hread'.symm ▸ hthree, by rw [hlength, hthree]; rfl,
    hwords, hend⟩

end PulseSequencer
