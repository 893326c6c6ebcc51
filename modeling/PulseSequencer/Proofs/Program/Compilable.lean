import PulseSequencer.Proofs.Machine.Sequence
import PulseSequencer.Proofs.Sequence.WellFormed

/-!
# What a compilation comes to

A sequence that a builder holds is refused by the compiler for its length alone: it has none, or its
total does not fit into a word. The records of edges and of DDS changes stand no later than the
total, so none of them fails if the total fits. If it does not, the closing record fails at the
latest.

* `Sequence.Compilable`: a sequence with nothing to be refused for but its total.
* `Sequence.Compilable.compile_of_zero`, `Sequence.Compilable.compile_of_lt`,
  `Sequence.Compilable.compile_of_le`: the three outcomes, by the total;
  `Sequence.Compilable.tooLong_of_le`, the length that the last one reports.
* `Builder.compilable_of_run`: the sequences of a builder are such.
* `Builder.Compiles`: the outcome for a builder, and `Builder.run_compiles`, that a run leads there;
  `repump_compiles` is a case of it.
-/

namespace PulseSequencer

/-- A sequence with a total, on lines of the board and on channels of the registry. -/
structure Sequence.Compilable (registry : Registry) (timing : Timing) (s : Sequence) (total : Nat) :
    Prop where
  length_le : s.declaredLength ≤ timing.maxLength
  total : s.totalTicks timing = .ok total
  lines : ∀ p ∈ s.ttlPulses, p.line.toNat < lineLimit
  channels : ∀ e ∈ s.ddsEvents, ∃ d, registry.ddsAt? e.channel = some d

variable {registry : Registry} {timing : Timing} {s : Sequence} {total : Nat}

/-! ## The two sections -/

/-- A tick that a word can hold has one. -/
lemma tickWord_of_lt (timing : Timing) {tick : Nat} (h : tick < Word.count) :
    ∃ w, tickWord timing tick = .ok w :=
  ⟨_, if_pos h⟩

/-- A record is refused exactly for a tick that no word can hold. -/
lemma ttlRecord_eq_error {entry : Nat × Word} {e : Error}
    (h : ttlRecord timing entry = .error e) :
    Word.count ≤ entry.1 ∧
      e = .sequenceTooLong (entry.1 * timing.resolution) timing.maxLength := by
  unfold ttlRecord tickWord at h
  split at h
  case isTrue => cases h
  case isFalse hbeyond =>
    cases h
    exact ⟨Nat.le_of_not_lt hbeyond, rfl⟩

/-- No entry stands beyond the end. -/
lemma Edge.le_of_mem_entries {edges : List Edge} {entry : Nat × Word}
    (h : entry ∈ Edge.entries edges total) : entry.1 ≤ total := by
  rcases List.mem_append.mp h with h | h
  · cases h with
    | head => exact Nat.zero_le total
    | tail _ h => exact Nat.le_of_lt (Edge.mem_ticksWithin.mp (mem_ticks_of_mem_maskChanges h)).2.2
  · rw [List.mem_singleton.mp h]

/-- The last entry stands at the end, with every line low. -/
lemma Edge.last_mem_entries (edges : List Edge) (total : Nat) :
    (total, 0) ∈ Edge.entries edges total :=
  List.mem_append_right _ List.mem_cons_self

namespace Sequence.Compilable

variable (h : s.Compilable registry timing total)
include h

/-- On lines of the board the TTL section is made of its entries, one after the other. -/
lemma compileTtl_eq : compileTtl s.ttlPulses timing total =
    (Edge.entries (Edge.ofPulses timing s.ttlPulses) total).mapM (ttlRecord timing) :=
  if_pos (List.all_eq_true.mpr fun p hp => decide_eq_true (h.lines p hp))

/-- If the end has a word, there is a TTL section. -/
lemma exists_compileTtl (hlt : total < Word.count) :
    ∃ ttl, compileTtl s.ttlPulses timing total = .ok ttl := by
  rw [h.compileTtl_eq]
  refine Result.exists_mapM_iff.mpr fun entry hentry => ?_
  obtain ⟨w, hw⟩ := tickWord_of_lt timing (Nat.lt_of_le_of_lt (Edge.le_of_mem_entries hentry) hlt)
  exact ⟨_, Result.map_eq_ok.mpr ⟨w, hw, rfl⟩⟩

/-- A total that does not fit into a word is caught in the TTL section, at its end or before. -/
lemma compileTtl_of_le (hle : Word.count ≤ total) :
    ∃ tick, Word.count ≤ tick ∧ tick ≤ total ∧ compileTtl s.ttlPulses timing total =
      .error (.sequenceTooLong (tick * timing.resolution) timing.maxLength) := by
  rw [h.compileTtl_eq]
  cases hall : (Edge.entries (Edge.ofPulses timing s.ttlPulses) total).mapM (ttlRecord timing) with
  | ok ttl =>
    -- the last record would hold the total
    obtain ⟨r, hr⟩ := Result.exists_mapM_iff.mp ⟨ttl, hall⟩ _ (Edge.last_mem_entries _ total)
    obtain ⟨w, hw, -⟩ := Result.map_eq_ok.mp hr
    have hfits : w.toNat < Word.count := w.isLt
    rw [toNat_of_tickWord hw] at hfits
    exact absurd hle (Nat.not_le_of_lt hfits)
  | error e =>
    obtain ⟨entry, hentry, herror⟩ := Result.exists_of_mapM_error hall
    obtain ⟨hbeyond, rfl⟩ := ttlRecord_eq_error herror
    exact ⟨entry.1, hbeyond, Edge.le_of_mem_entries hentry, rfl⟩

/-- A DDS change is that of a channel, and comes no later than the total. -/
lemma exists_ddsRecord (hlt : total < Word.count) {t : Transition} (ht : t ∈ s.transitions timing) :
    ∃ r, ddsRecord registry timing t = .ok r := by
  obtain ⟨e, he, hchange⟩ := Transition.mem_walk (List.mem_mergeSort.mp ht)
  rw [List.mem_mergeSort] at he
  have hfinish : timing.ticks e.finish ≤ total := ticks_finish_le h.total (mem_ddsEvents.mp he)
  have hstart : timing.ticks e.start ≤ timing.ticks e.finish := Transition.ticks_start_le timing e
  have htick : t.channel = e.channel ∧ t.tick ≤ total := by
    rcases hchange with rfl | rfl
    · exact ⟨rfl, hstart.trans hfinish⟩
    · exact ⟨rfl, hfinish⟩
  obtain ⟨d, hd⟩ := h.channels e he
  obtain ⟨w, hw⟩ := tickWord_of_lt timing (Nat.lt_of_le_of_lt htick.2 hlt)
  rw [ddsRecord, htick.1, hd]
  exact ⟨_, Result.bind_eq_ok.mpr ⟨w, hw, rfl⟩⟩

/-- If the end has a word, there is a DDS section. -/
lemma exists_compileDds (hlt : total < Word.count) :
    ∃ dds, compileDds s registry timing = .ok dds :=
  Result.exists_mapM_iff.mpr fun _ ht => h.exists_ddsRecord hlt ht

/-! ## The three outcomes -/

/-- The compilation of a sequence: one without a tick is empty, and otherwise both sections are
made. -/
lemma compile_eq : compile s registry timing =
    if total = 0 then .error .emptySequence
    else do
      let ttl ← compileTtl s.ttlPulses timing total
      let dds ← compileDds s registry timing
      return ⟨Program.ofRecords ttl dds, total⟩ := by
  rw [compile, if_neg (Nat.not_lt_of_le h.length_le), h.total]
  rfl

/-- A sequence without a tick is refused as empty. -/
lemma compile_of_zero (hzero : total = 0) : compile s registry timing = .error .emptySequence := by
  rw [h.compile_eq, if_pos hzero]

/-- A sequence with ticks that have words has a program of that many. -/
lemma compile_of_lt (hpos : total ≠ 0) (hlt : total < Word.count) :
    ∃ p, compile s registry timing = .ok p ∧ p.totalTicks = total := by
  obtain ⟨ttl, httl⟩ := h.exists_compileTtl hlt
  obtain ⟨dds, hdds⟩ := h.exists_compileDds hlt
  refine ⟨⟨Program.ofRecords ttl dds, total⟩, ?_, rfl⟩
  rw [h.compile_eq, if_neg hpos, httl, hdds]
  rfl

/-- The length that is reported is that of some tick beyond the words. -/
lemma tooLong_of_le (hle : Word.count ≤ total) :
    ∃ tick, Word.count ≤ tick ∧ tick ≤ total ∧ compile s registry timing =
      .error (.sequenceTooLong (tick * timing.resolution) timing.maxLength) := by
  obtain ⟨tick, hbeyond, hwithin, herror⟩ := h.compileTtl_of_le hle
  have hpos : total ≠ 0 := Nat.pos_iff_ne_zero.mp (Nat.lt_of_lt_of_le (by decide) hle)
  refine ⟨tick, hbeyond, hwithin, ?_⟩
  rw [h.compile_eq, if_neg hpos, herror]
  rfl

/-- A sequence with more ticks than words is refused as too long. -/
lemma compile_of_le (hle : Word.count ≤ total) : ∃ length,
    compile s registry timing = .error (.sequenceTooLong length timing.maxLength) := by
  obtain ⟨tick, -, -, herror⟩ := h.tooLong_of_le hle
  exact ⟨_, herror⟩

/-- Only for a total that does not fit into a word a length is reported. -/
lemma le_of_tooLong {length maximum : Nat}
    (htoo : compile s registry timing = .error (.sequenceTooLong length maximum)) :
    Word.count ≤ total := by
  by_contra hfits
  by_cases hzero : total = 0
  · cases (h.compile_of_zero hzero).symm.trans htoo
  · obtain ⟨p, hp, -⟩ := h.compile_of_lt hzero (Nat.lt_of_not_le hfits)
    cases hp.symm.trans htoo

end Sequence.Compilable

/-! ## Builders -/

namespace Builder

variable {config : Configuration}

section
variable (hregistry : Registry.ofConfiguration config = .ok registry) (requests : List Request)
  (hs : ((new registry config.timing).run requests).sequence = some s)
include hregistry hs

/-- The sequence of a builder can be compiled, up to its length. -/
lemma compilable_of_run :
    s.Compilable registry config.timing (config.timing.cover s.declaredLength) := by
  have sound := run_sound (new_sound registry config.timing) requests
  rw [run_eq hs] at sound
  have sound := sound s rfl
  constructor
  case length_le => exact sound.declaredLength_le
  case total => exact (sound.reaches (Timing.bounded_of_ofConfiguration hregistry)).ceilTicks_eq
  case lines =>
    intro p hp
    exact (sound.events _ (Sequence.mem_ttlPulses.mp hp)).2.lt hregistry
  case channels =>
    intro e he
    obtain ⟨-, d, hd, takes⟩ :=
      (run_wellFormed hregistry requests hs).entries _ (Sequence.mem_ddsEvents.mp he)
    exact ⟨d, (Registry.ddsAt?_eq_some hregistry).mpr ⟨hd, takes.channel.symm⟩⟩

/-- A builder whose length has ticks with words has a program of that many. -/
lemma exists_compile_of_run (hpos : config.timing.cover s.declaredLength ≠ 0)
    (hlt : config.timing.cover s.declaredLength < Word.count) :
    ∃ p, ((new registry config.timing).run requests).compile = .ok p ∧
      p.totalTicks = config.timing.cover s.declaredLength := by
  rw [run_eq hs]
  exact (compilable_of_run hregistry requests hs).compile_of_lt hpos hlt

/-- A sequence with an entry has a tick at least. -/
lemma cover_pos_of_run (hevents : s.events ≠ []) : 0 < config.timing.cover s.declaredLength := by
  obtain ⟨e, he⟩ := List.exists_mem_of_ne_nil _ hevents
  have hlasts := (run_wellFormed hregistry requests hs).nonempty e he
  have hends := Sequence.ticks_finish_le (compilable_of_run hregistry requests hs).total he
  exact Nat.lt_of_lt_of_le (Nat.zero_lt_of_lt hlasts) hends

end

/-- What the compilation of a builder comes to, by the number of ticks that cover the length of its
sequence: it is refused without a tick or without a sequence, and with more ticks than a word can
tell apart. Otherwise there is a program of that many ticks. A sequence with an entry has a tick. -/
structure Compiles (config : Configuration) (b : Builder) : Prop where
  empty : b.compile = .error .emptySequence ↔
    ∀ s ∈ b.sequence, config.timing.cover s.declaredLength = 0
  tooLong : (∃ length maximum, b.compile = .error (.sequenceTooLong length maximum)) ↔
    ∃ s ∈ b.sequence, Word.count ≤ config.timing.cover s.declaredLength
  compiled : ∀ total, (∃ p, b.compile = .ok p ∧ p.totalTicks = total) ↔
    ∃ s ∈ b.sequence, config.timing.cover s.declaredLength = total ∧ total ≠ 0 ∧ total < Word.count
  refused : ∀ e, b.compile = .error e →
    e = .emptySequence ∨ ∃ length maximum, e = .sequenceTooLong length maximum
  pos : ∀ s ∈ b.sequence, s.events ≠ [] → 0 < config.timing.cover s.declaredLength

/-- The compilation of a builder of an accepted configuration, whatever was requested of it. -/
theorem run_compiles (hregistry : Registry.ofConfiguration config = .ok registry)
    (requests : List Request) : Compiles config ((new registry config.timing).run requests) := by
  cases hs : ((new registry config.timing).run requests).sequence with
  | none =>
    have herror : ((new registry config.timing).run requests).compile = .error .emptySequence := by
      rw [Builder.compile, hs]
    constructor <;> simp [hs, herror]
  | some s =>
    have compilable := compilable_of_run hregistry requests hs
    have hpos := cover_pos_of_run hregistry requests hs
    have hcompile : ((new registry config.timing).run requests).compile =
        PulseSequencer.compile s registry config.timing := by
      rw [run_eq hs]
      rfl
    have pos : ∀ s' ∈ ((new registry config.timing).run requests).sequence, s'.events ≠ [] →
        0 < config.timing.cover s'.declaredLength := by simpa [hs] using hpos
    -- the number of ticks decides how the compilation ends
    by_cases hzero : config.timing.cover s.declaredLength = 0
    · have herror := hcompile.trans (compilable.compile_of_zero hzero)
      constructor
      case pos => exact pos
      all_goals simp [hs, herror, hzero, Word.count]
    · by_cases hfits : config.timing.cover s.declaredLength < Word.count
      · obtain ⟨p, hp, htotal⟩ := compilable.compile_of_lt hzero hfits
        have hok := hcompile.trans hp
        constructor
        case pos => exact pos
        all_goals simp [hs, hok, hzero, hfits, htotal]
      · obtain ⟨length, htoo⟩ := compilable.compile_of_le (Nat.le_of_not_lt hfits)
        have herror := hcompile.trans htoo
        constructor
        case pos => exact pos
        all_goals simp [hs, herror, hzero, Nat.le_of_not_lt hfits]

/-- A sequence of 600 ns is compiled to a program of 15 ticks. -/
theorem repump_compiles :
    Registry.ofConfiguration repumpConfiguration = .ok repumpRegistry ∧
      ∃ p, ((new repumpRegistry repumpConfiguration.timing).run repumpRequests).compile = .ok p ∧
        p.totalTicks = 15 := by
  refine ⟨ofConfiguration_repump, ?_⟩
  exact ((run_compiles ofConfiguration_repump repumpRequests).compiled 15).mpr
    ⟨_, rfl, by decide, by decide, by decide⟩

end Builder

end PulseSequencer
