import PulseSequencer.Registry
import PulseSequencer.Proofs.Result

/-!
# What an accepted configuration promises

A configuration is accepted exactly if it is consistent: it has a time resolution and a sound number
of lines, its ranges are in order, no name and no index stands twice in one of its two tables, and
its lines are lines of the board. In which order the tables are written down does not matter. A
registry is made of such a configuration, and whatever uses the registry relies on these facts.

* `Fresh`: entries whose keys are new.
* `Configuration.Consistent`: a configuration in which nothing is wrong, and
  `Configuration.validate_eq_ok`, that these are the accepted ones.
* `resolution_ne_of_ofConfiguration`: there is a time resolution.
* `index_lt_of_ofConfiguration`: the channels are on lines of the board.
* `Registry.HasLine`: a line is that of a channel.
-/

namespace PulseSequencer

/-! ## Keys -/

section
variable {α κ : Type} {key : α → κ} {seen : List κ} {x : α} {xs ys : List α}

/-- The keys of a list were not seen before, and none of them comes twice. -/
structure Fresh (key : α → κ) (seen : List κ) (xs : List α) : Prop where
  unseen : ∀ x ∈ xs, key x ∉ seen
  nodup : (xs.map key).Nodup

/-- No entries have no keys that were seen. -/
lemma Fresh.nil : Fresh key seen [] := ⟨nofun, .nil⟩

/-- The first entry is new, and the others are new after it. -/
lemma fresh_cons : Fresh key seen (x :: xs) ↔ key x ∉ seen ∧ Fresh key (key x :: seen) xs := by
  constructor
  · intro h
    obtain ⟨hx, hrest⟩ := List.forall_mem_cons.mp h.unseen
    obtain ⟨hnew, hnodup⟩ := List.nodup_cons.mp h.nodup
    refine ⟨hx, fun y hy hmem => ?_, hnodup⟩
    rcases List.mem_cons.mp hmem with heq | hmem
    · exact hnew (heq ▸ List.mem_map_of_mem hy)
    · exact hrest y hy hmem
  · rintro ⟨hx, h⟩
    constructor
    · refine List.forall_mem_cons.mpr ⟨hx, fun y hy hmem => ?_⟩
      exact h.unseen y hy (List.mem_cons_of_mem _ hmem)
    · refine List.nodup_cons.mpr ⟨fun hmem => ?_, h.nodup⟩
      obtain ⟨y, hy, heq⟩ := List.mem_map.mp hmem
      exact h.unseen y hy (heq ▸ List.mem_cons_self)

/-- If no key was seen before, entries are fresh as long as no two share one. -/
lemma fresh_nil_iff : Fresh key [] xs ↔ (xs.map key).Nodup :=
  ⟨Fresh.nodup, fun h => ⟨fun _ _ => List.not_mem_nil, h⟩⟩

end

/-! ## What is checked -/

namespace Configuration

variable {config : Configuration}

/-- No name and no index stands twice in one of the two tables of a configuration. -/
structure Unique (config : Configuration) : Prop where
  channelNames : (config.channels.map Channel.name).Nodup
  channelIndices : (config.channels.map Channel.index).Nodup
  ddsNames : (config.dds.map DdsChannel.name).Nodup
  ddsIndices : (config.dds.map DdsChannel.index).Nodup

/-- Nothing is wrong with a configuration. -/
structure Consistent (config : Configuration) : Prop where
  resolution_ne : config.resolution ≠ 0
  total_ne : config.channelTotal ≠ 0
  total_le : config.channelTotal ≤ 32
  range_pos : config.collectionRange.low > 0.0
  range_le : config.collectionRange.low ≤ config.collectionRange.high
  unique : config.Unique
  within : ∀ c ∈ config.channels, c.index < config.channelTotal
  ranges : ∀ d ∈ config.dds, d.validate = .ok ()

/-- The channels are accepted exactly if names and indices are fresh and the indices are those of
lines. -/
lemma checkChannels_eq_ok {total : UInt8} {names : List String} {indices : List UInt8}
    {channels : List Channel} :
    checkChannels total names indices channels = .ok () ↔
      Fresh Channel.name names channels ∧ Fresh Channel.index indices channels ∧
        ∀ c ∈ channels, c.index < total := by
  induction channels generalizing names indices with
  | nil => exact iff_of_true rfl ⟨.nil, .nil, nofun⟩
  | cons c rest ih =>
    rw [fresh_cons, fresh_cons, List.forall_mem_cons]
    unfold checkChannels
    split
    case isTrue hname => exact iff_of_false nofun fun h => h.1.1 hname
    case isFalse hname =>
      split
      case isTrue htotal => exact iff_of_false nofun fun h => UInt8.not_le.mpr h.2.2.1 htotal
      case isFalse htotal =>
        split
        case isTrue hindex => exact iff_of_false nofun fun h => h.2.1.1 hindex
        case isFalse hindex =>
          rw [ih]
          have hlt := UInt8.not_le.mp htotal
          simp only [hname, hindex, hlt, not_false_eq_true, true_and]

/-- The DDS channels are accepted exactly if names and indices are fresh and each of them is
valid. -/
lemma checkDds_eq_ok {names : List String} {indices : List UInt8} {dds : List DdsChannel} :
    checkDds names indices dds = .ok () ↔
      Fresh DdsChannel.name names dds ∧ Fresh DdsChannel.index indices dds ∧
        ∀ d ∈ dds, d.validate = .ok () := by
  induction dds generalizing names indices with
  | nil => exact iff_of_true rfl ⟨.nil, .nil, nofun⟩
  | cons d rest ih =>
    rw [fresh_cons, fresh_cons, List.forall_mem_cons]
    unfold checkDds
    split
    case isTrue hseen => exact iff_of_false nofun fun h => hseen.elim h.1.1 h.2.1.1
    case isFalse hnew =>
      obtain ⟨hname, hindex⟩ := not_or.mp hnew
      rw [Result.check_eq_ok, ih, and_iff_right hname, and_iff_right hindex]
      exact and_left_comm.trans (and_congr_right' and_left_comm)

/-- A range of collection times is accepted exactly if it is positive and not empty. -/
lemma checkCollectionRange_eq_ok {s : Span} :
    checkCollectionRange s = .ok () ↔ s.low > 0.0 ∧ s.low ≤ s.high := by
  simp [checkCollectionRange]

/-- The accepted configurations are the consistent ones. -/
lemma validate_eq_ok : config.validate = .ok () ↔ config.Consistent := by
  simp only [validate, Result.unless_eq_ok, Result.check_eq_ok, checkCollectionRange_eq_ok,
    checkChannels_eq_ok, checkDds_eq_ok, fresh_nil_iff, not_or, UInt8.not_lt]
  constructor
  · rintro ⟨resolution, ⟨total, hle⟩, ⟨hpos, hrange⟩, ⟨names, indices, within⟩,
      ddsNames, ddsIndices, ranges⟩
    exact ⟨resolution, total, hle, hpos, hrange, ⟨names, indices, ddsNames, ddsIndices⟩, within,
      ranges⟩
  · rintro ⟨resolution, total, hle, hpos, hrange, unique, within, ranges⟩
    exact ⟨resolution, ⟨total, hle⟩, ⟨hpos, hrange⟩,
      ⟨unique.channelNames, unique.channelIndices, within⟩, unique.ddsNames, unique.ddsIndices,
      ranges⟩

/-- A consistent configuration is so with its tables in any other order. -/
lemma Consistent.perm (h : config.Consistent) {channels : List Channel} {dds : List DdsChannel}
    (hchannels : channels.Perm config.channels) (hdds : dds.Perm config.dds) :
    Consistent { config with channels, dds } where
  resolution_ne := h.resolution_ne
  total_ne := h.total_ne
  total_le := h.total_le
  range_pos := h.range_pos
  range_le := h.range_le
  unique.channelNames := (hchannels.map _).nodup_iff.mpr h.unique.channelNames
  unique.channelIndices := (hchannels.map _).nodup_iff.mpr h.unique.channelIndices
  unique.ddsNames := (hdds.map _).nodup_iff.mpr h.unique.ddsNames
  unique.ddsIndices := (hdds.map _).nodup_iff.mpr h.unique.ddsIndices
  within c hc := h.within c (hchannels.mem_iff.mp hc)
  ranges d hd := h.ranges d (hdds.mem_iff.mp hd)

end Configuration

/-! ## What a registry relies on -/

section
variable {config : Configuration} {registry : Registry}

/-- A registry is made of every consistent configuration, with the channels in the order of their
lines. -/
lemma ofConfiguration_eq_ok :
    Registry.ofConfiguration config = .ok registry ↔
      config.Consistent ∧
        ⟨config.channels.mergeSort (fun a b => a.index ≤ b.index), config.dds⟩ = registry := by
  rw [Registry.ofConfiguration, Result.check_eq_ok, Configuration.validate_eq_ok]
  exact and_congr_right' (iff_of_eq (Except.ok.injEq _ _))

/-- If a configuration lists its lines in their order, its registry has its tables as they are. -/
lemma ofConfiguration_of_ordered (hvalid : config.validate = .ok ())
    (ordered : config.channels.Pairwise fun a b => a.index ≤ b.index) :
    Registry.ofConfiguration config = .ok ⟨config.channels, config.dds⟩ := by
  refine ofConfiguration_eq_ok.mpr ⟨Configuration.validate_eq_ok.mp hvalid, ?_⟩
  rw [List.mergeSort_of_pairwise (ordered.imp fun h => decide_eq_true h)]

/-- A configuration with a registry is consistent. -/
lemma consistent_of_ofConfiguration (h : Registry.ofConfiguration config = .ok registry) :
    config.Consistent :=
  (ofConfiguration_eq_ok.mp h).1

/-- The timing of an accepted configuration has a resolution. -/
lemma resolution_ne_of_ofConfiguration (h : Registry.ofConfiguration config = .ok registry) :
    config.timing.resolution ≠ 0 :=
  fun hzero => (consistent_of_ofConfiguration h).resolution_ne (UInt64.toNat_inj.mp hzero)

/-- A registry has the entries of its configuration. -/
lemma tables_of_ofConfiguration (h : Registry.ofConfiguration config = .ok registry) :
    registry.channels.Perm config.channels ∧ registry.dds = config.dds := by
  obtain ⟨-, rfl⟩ := ofConfiguration_eq_ok.mp h
  exact ⟨List.mergeSort_perm _ _, rfl⟩

/-- The channels of a registry are on lines of the board. -/
lemma index_lt_of_ofConfiguration (h : Registry.ofConfiguration config = .ok registry) :
    ∀ c ∈ registry.channels, c.index.toNat < lineLimit := by
  have consistent := consistent_of_ofConfiguration h
  intro c hc
  have hlt := consistent.within c ((tables_of_ofConfiguration h).1.mem_iff.mp hc)
  exact Nat.lt_of_lt_of_le (UInt8.lt_iff_toNat_lt.mp hlt)
    (UInt8.le_iff_toNat_le.mp consistent.total_le)

end

/-- A name of the registry stands for the line of one of its channels. -/
lemma index_of_hardwareIndex {registry : Registry} {name : String} {index : UInt8}
    (h : registry.hardwareIndex name = .ok index) : ∃ c ∈ registry.channels, c.index = index := by
  obtain ⟨c, hc, rfl⟩ := Result.map_eq_ok.mp h
  unfold Registry.channel at hc
  split at hc
  case h_1 c' hfind =>
    cases hc
    exact ⟨c, List.mem_of_find?_eq_some hfind, rfl⟩
  case h_2 => cases hc

/-- The line is that of a channel. -/
def Registry.HasLine (registry : Registry) (index : UInt8) : Prop :=
  ∃ name, registry.hardwareIndex name = .ok index

/-- The lines of channels are lines of the board. -/
lemma Registry.HasLine.lt {config : Configuration} {registry : Registry} {index : UInt8}
    (h : registry.HasLine index) (hregistry : Registry.ofConfiguration config = .ok registry) :
    index.toNat < lineLimit := by
  obtain ⟨name, hname⟩ := h
  obtain ⟨c, hc, rfl⟩ := index_of_hardwareIndex hname
  exact index_lt_of_ofConfiguration hregistry c hc

end PulseSequencer
