import PulseSequencer.Proofs.Configuration

/-!
# The look-ups of a registry

No two entries of one table of an accepted configuration have the same name or the same index. So a
look-up has one answer at most, and it finds every entry of the configuration. The registry keeps
the lines in the order of the board, and that order is settled by the entries alone: in whatever
order a configuration lists them, its registry gives the same answers.

* `find?_eq_some_of_nodup`: the entry of a key.
* `Registry.channel_eq_ok`, `Registry.ddsNamed_eq_ok`, `Registry.ddsAt?_eq_some`: what the look-ups
  find; `Registry.channel_eq_error`, `Registry.ddsNamed_eq_error`: what they refuse.
* `Registry.channels_increasing`: the lines stand in the order of the board.
* `Registry.Tells`: a registry answers what a configuration says.
* `Registry.SameAnswers`: two registries that no look-up tells apart.
* `Registry.ofConfiguration_tells`: the registry of a configuration;
  `Registry.unordered_tells` is a case of it.
-/

namespace PulseSequencer

section
variable {α κ : Type} [DecidableEq κ] {key : α → κ} {x : α} {xs : List α} {k : κ}

/-- Of entries with different keys the first one with a key is the only one. -/
lemma find?_eq_some_of_nodup (h : (xs.map key).Nodup) :
    xs.find? (fun y => decide (key y = k)) = some x ↔ x ∈ xs ∧ key x = k := by
  constructor
  · intro hfind
    exact ⟨List.mem_of_find?_eq_some hfind, by simpa using List.find?_some hfind⟩
  · rintro ⟨hx, rfl⟩
    cases hfind : xs.find? (fun y => decide (key y = key x)) with
    | none => exact absurd (decide_eq_true rfl) (List.find?_eq_none.mp hfind x hx)
    | some y =>
      have hkey : key y = key x := by simpa using List.find?_some hfind
      rw [List.inj_on_of_nodup_map h (List.mem_of_find?_eq_some hfind) hx hkey]

/-- Nothing is found under a key that no entry has. -/
lemma find?_eq_none_of_keys :
    xs.find? (fun y => decide (key y = k)) = none ↔ ∀ y ∈ xs, key y ≠ k := by
  simp

end

variable {config : Configuration} {registry : Registry}

section
variable (h : Registry.ofConfiguration config = .ok registry)
include h

/-- The names and indices of a configuration with a registry are unique. -/
lemma unique_of_ofConfiguration : config.Unique := (consistent_of_ofConfiguration h).unique

/-- The channels of an accepted configuration are on lines below its total. -/
lemma index_lt_channelTotal {c : Channel} (hc : c ∈ config.channels) :
    c.index < config.channelTotal :=
  (consistent_of_ofConfiguration h).within c hc

namespace Registry

/-! ## What is found -/

/-- A name has the one channel with that name. -/
lemma channel_eq_ok {name : String} {c : Channel} :
    registry.channel name = .ok c ↔ c ∈ config.channels ∧ c.name = name := by
  obtain ⟨perm, -⟩ := tables_of_ofConfiguration h
  have names : (registry.channels.map Channel.name).Nodup :=
    (perm.map _).nodup_iff.mpr (unique_of_ofConfiguration h).channelNames
  rw [← perm.mem_iff, ← find?_eq_some_of_nodup names, channel]
  cases registry.channels.find? (·.name = name) <;> simp

/-- A name is unknown if no channel has it. -/
lemma channel_eq_error {name : String} {e : Error} :
    registry.channel name = .error e ↔
      (∀ c ∈ config.channels, c.name ≠ name) ∧ e = .unknownChannel name := by
  obtain ⟨perm, -⟩ := tables_of_ofConfiguration h
  have hnone : (∀ c ∈ config.channels, c.name ≠ name) ↔
      registry.channels.find? (·.name = name) = none := by
    rw [find?_eq_none_of_keys]
    exact forall_congr' fun c => imp_congr_left perm.mem_iff.symm
  rw [hnone, channel]
  cases registry.channels.find? (·.name = name) <;> simp [eq_comm]

/-- The line of a name is that of its channel. -/
lemma hardwareIndex_eq_ok {name : String} {line : UInt8} :
    registry.hardwareIndex name = .ok line ↔
      ∃ c ∈ config.channels, c.name = name ∧ c.index = line := by
  simp only [hardwareIndex, Result.map_eq_ok, channel_eq_ok h, and_assoc]

/-- A name has the one DDS channel with that name. -/
lemma ddsNamed_eq_ok {name : String} {d : DdsChannel} :
    registry.ddsNamed name = .ok d ↔ d ∈ config.dds ∧ d.name = name := by
  obtain ⟨-, hdds⟩ := tables_of_ofConfiguration h
  rw [← find?_eq_some_of_nodup (unique_of_ofConfiguration h).ddsNames, ddsNamed, hdds]
  cases config.dds.find? (·.name = name) <;> simp

/-- A name is unknown if no DDS channel has it. -/
lemma ddsNamed_eq_error {name : String} {e : Error} :
    registry.ddsNamed name = .error e ↔
      (∀ d ∈ config.dds, d.name ≠ name) ∧ e = .unknownChannel name := by
  obtain ⟨-, hdds⟩ := tables_of_ofConfiguration h
  rw [← find?_eq_none_of_keys, ddsNamed, hdds]
  cases config.dds.find? (·.name = name) <;> simp [eq_comm]

/-- An index has the one DDS channel with that index. -/
lemma ddsAt?_eq_some {index : UInt8} {d : DdsChannel} :
    registry.ddsAt? index = some d ↔ d ∈ config.dds ∧ d.index = index := by
  obtain ⟨-, hdds⟩ := tables_of_ofConfiguration h
  rw [← find?_eq_some_of_nodup (unique_of_ofConfiguration h).ddsIndices, ddsAt?, hdds]

/-- The channels of a registry are in the order of their lines. -/
lemma channels_increasing : registry.channels.Pairwise (·.index < ·.index) := by
  have indices : (registry.channels.map Channel.index).Nodup :=
    ((tables_of_ofConfiguration h).1.map _).nodup_iff.mpr
      (unique_of_ofConfiguration h).channelIndices
  have distinct : registry.channels.Pairwise (·.index ≠ ·.index) := List.pairwise_map.mp indices
  obtain ⟨-, rfl⟩ := ofConfiguration_eq_ok.mp h
  have sorted : (config.channels.mergeSort fun a b => a.index ≤ b.index).Pairwise
      fun a b => decide (a.index ≤ b.index) = true := by
    refine List.pairwise_mergeSort (fun a b c hab hbc => ?_) (fun a b => ?_) _
    · exact decide_eq_true (UInt8.le_trans (of_decide_eq_true hab) (of_decide_eq_true hbc))
    · simpa using UInt8.le_total a.index b.index
  exact (sorted.and distinct).imp fun hab => UInt8.lt_of_le_of_ne (of_decide_eq_true hab.1) hab.2

/-- There is only one way to put the lines in the order of the board. -/
lemma channels_eq_of_increasing {channels : List Channel} (perm : channels.Perm config.channels)
    (increasing : channels.Pairwise (·.index < ·.index)) : registry.channels = channels := by
  refine List.Perm.eq_of_pairwise (fun a b _ _ hab hba => ?_) (channels_increasing h) increasing
    ((tables_of_ofConfiguration h).1.trans perm.symm)
  exact absurd hab (UInt8.lt_asymm hba)

/-! ## All answers -/

/-- A registry answers what a configuration says. A name has the one entry with that name, in each
of the two tables, and is unknown without one. An index has the DDS channel with that index, which
is found under its name. The table lists names and lines in the order of the lines, and these are
lines of the board. -/
structure Tells (registry : Registry) (config : Configuration) : Prop where
  channel : ∀ name c, registry.channel name = .ok c ↔ c ∈ config.channels ∧ c.name = name
  noChannel : ∀ name e, registry.channel name = .error e ↔
    (∀ c ∈ config.channels, c.name ≠ name) ∧ e = .unknownChannel name
  dds : ∀ name d, registry.ddsNamed name = .ok d ↔ d ∈ config.dds ∧ d.name = name
  noDds : ∀ name e, registry.ddsNamed name = .error e ↔
    (∀ d ∈ config.dds, d.name ≠ name) ∧ e = .unknownChannel name
  ddsAt : ∀ index d, registry.ddsAt? index = some d ↔
    registry.ddsNamed d.name = .ok d ∧ d.index = index
  table : ∀ name index, (name, index) ∈ registry.table ↔
    ∃ c ∈ config.channels, c.name = name ∧ c.index = index
  increasing : (registry.table.map Prod.snd).Pairwise (· < ·)
  within : ∀ entry ∈ registry.table, entry.2 < config.channelTotal
  total_le : config.channelTotal ≤ 32

/-- No look-up tells two registries apart. -/
structure SameAnswers (r r' : Registry) : Prop where
  channel : r.channel = r'.channel
  hardwareIndex : r.hardwareIndex = r'.hardwareIndex
  ddsNamed : r.ddsNamed = r'.ddsNamed
  ddsAt : r.ddsAt? = r'.ddsAt?
  table : r.table = r'.table

/-- The registry of a configuration answers what the configuration says. -/
lemma tells_of_ofConfiguration : registry.Tells config where
  channel _ _ := channel_eq_ok h
  noChannel _ _ := channel_eq_error h
  dds _ _ := ddsNamed_eq_ok h
  noDds _ _ := ddsNamed_eq_error h
  ddsAt index d := by
    rw [ddsAt?_eq_some h, ddsNamed_eq_ok h, and_iff_left rfl]
  table name index := by
    simp [Registry.table, (tables_of_ofConfiguration h).1.mem_iff]
  increasing := by
    rw [Registry.table, List.map_map]
    exact List.pairwise_map.mpr (channels_increasing h)
  within entry hentry := by
    obtain ⟨c, hc, rfl⟩ := List.mem_map.mp hentry
    exact index_lt_channelTotal h ((tables_of_ofConfiguration h).1.mem_iff.mp hc)
  total_le := (consistent_of_ofConfiguration h).total_le

/-- The order in which a configuration lists its entries does not matter to its registry. -/
lemma sameAnswers_of_perm {config' : Configuration} {registry' : Registry}
    (h' : ofConfiguration config' = .ok registry')
    (hchannels : config'.channels.Perm config.channels)
    (hdds : config'.dds.Perm config.dds) : registry.SameAnswers registry' := by
  -- there is one way to sort channels by their lines
  have lines : registry.channels = registry'.channels :=
    channels_eq_of_increasing h ((tables_of_ofConfiguration h').1.trans hchannels)
      (channels_increasing h')
  have channel : registry.channel = registry'.channel := by
    unfold Registry.channel
    rw [lines]
  constructor
  case channel => exact channel
  case hardwareIndex =>
    unfold Registry.hardwareIndex
    rw [channel]
  case ddsNamed =>
    funext name
    cases hd : registry'.ddsNamed name with
    | ok d =>
      rw [ddsNamed_eq_ok h', hdds.mem_iff] at hd
      exact (ddsNamed_eq_ok h).mpr hd
    | error e =>
      rw [ddsNamed_eq_error h'] at hd
      exact (ddsNamed_eq_error h).mpr ⟨fun d hd' => hd.1 d (hdds.mem_iff.mpr hd'), hd.2⟩
  case ddsAt =>
    funext index
    refine Option.ext fun d => ?_
    rw [ddsAt?_eq_some h, ddsAt?_eq_some h', hdds.mem_iff]
  case table => rw [Registry.table, Registry.table, lines]

end Registry

end

namespace Registry

/-- There is a registry of a configuration exactly if that is accepted. It answers what the
configuration says, and the configuration with its two tables in any other order has a registry that
gives the same answers. -/
theorem ofConfiguration_tells (config : Configuration) :
    ((∃ registry, ofConfiguration config = .ok registry) ↔ config.validate = .ok ()) ∧
      ∀ registry, ofConfiguration config = .ok registry →
        registry.Tells config ∧
          ∀ channels dds, channels.Perm config.channels → dds.Perm config.dds →
            ∃ registry', ofConfiguration { config with channels, dds } = .ok registry' ∧
              registry.SameAnswers registry' := by
  refine ⟨?_, fun registry h => ⟨tells_of_ofConfiguration h, fun channels dds hchannels hdds => ?_⟩⟩
  · simp only [ofConfiguration_eq_ok, exists_and_left, exists_eq', and_true,
      Configuration.validate_eq_ok]
  · have consistent := (consistent_of_ofConfiguration h).perm hchannels hdds
    have h' := ofConfiguration_eq_ok.mpr ⟨consistent, rfl⟩
    exact ⟨_, h', sameAnswers_of_perm h h' hchannels hdds⟩

/-- A board whose lines are not listed in their order, and a DDS channel with the name of a line. -/
def unordered : Configuration :=
  { Configuration.default with
    channels := [.auto "B" 7, .auto "A" 2], dds := [.standard "A" 0 ⟨90.0, 130.0⟩ ⟨-63.0, -3.0⟩] }

set_option maxRecDepth 20000 in
/-- The configuration is accepted. -/
lemma validate_unordered : unordered.validate = .ok () := rfl

/-- The lines come in their order, whatever the order of the list. -/
theorem unordered_tells :
    ∃ registry, ofConfiguration unordered = .ok registry ∧ registry.Tells unordered ∧
      registry.table = [("A", 2), ("B", 7)] ∧
      [.auto "A" 2, .auto "B" 7].Perm unordered.channels ∧
      ∃ registry', ofConfiguration { unordered with channels := [.auto "A" 2, .auto "B" 7] } =
        .ok registry' ∧ registry.SameAnswers registry' := by
  obtain ⟨accepted, answers⟩ := ofConfiguration_tells unordered
  obtain ⟨registry, h⟩ := accepted.mpr validate_unordered
  obtain ⟨tells, same⟩ := answers registry h
  have perm : [Channel.auto "A" 2, .auto "B" 7].Perm unordered.channels := .swap _ _ _
  have table : registry.table = [("A", 2), ("B", 7)] := by
    rw [Registry.table, channels_eq_of_increasing h perm (by decide)]
    rfl
  exact ⟨registry, h, tells, table, perm, same _ _ perm (.refl _)⟩

end Registry

end PulseSequencer
