import PulseSequencer.Proofs.Program.Canonical
import PulseSequencer.Proofs.Sequence.Grid

/-!
# The labels of the grid

The cell of a label and a time is looked up in two steps: the label leads to a row, the time to a
column. Every time before the last boundary has a column, and nothing switches inside of it. The
labels are the names of the TTL lines and, behind these, those of the DDS channels. The names of
each kind are unique, but a DDS channel may have the name of a line, and then the label leads to the
row of the line.

* `Sequence.DdsActive`: what the row of a DDS channel is about; that of a line is about
  `Sequence.Active`.
* `Grid.Tells`: the cells of a label tell when something is so.
* `Grid.exists_column`: the column of a time.
* `Grid.tells_of_row`: the cells of a label tell what the row is about that it leads to.
* `Grid.Labelled`: every label tells when its own channel is active.
* `Grid.LinesFirst`: the same of all labels but those that a DDS channel shares with a line.
* `Builder.labelled_iff`: for which configurations all grids are so; `shared_label_misled` is a grid
  that is not.
-/

namespace PulseSequencer

/-- An event of the sequence covers a tick on a DDS channel. -/
def Sequence.DdsActive (timing : Timing) (s : Sequence) (channel : UInt8) (tick : Nat) : Prop :=
  ∃ e ∈ s.ddsEvents, e.channel = channel ∧ e.Covers timing tick

namespace Grid

variable {s : Sequence} {registry : Registry} {timing : Timing} {total : Nat} {g : Grid}

/-- For every time before the last boundary a label has a cell, which tells whether something is so
in the tick of the time. -/
def Tells (g : Grid) (timing : Timing) (label : String) (active : Nat → Prop) : Prop :=
  ∀ last ∈ g.times.getLast?, ∀ nanos < last,
    ∃ b, g.isActive label nanos = some b ∧ (b = true ↔ active (timing.ticks nanos))

/-- Every label tells when the line or the channel of this name is active. -/
structure Labelled (g : Grid) (registry : Registry) (timing : Timing) (s : Sequence) : Prop where
  line : ∀ c ∈ registry.channels, g.Tells timing c.name (s.Active timing c.index.toNat)
  dds : ∀ d ∈ registry.dds, g.Tells timing d.name (s.DdsActive timing d.index)

/-- The grid ends with its sequence, and a label tells when the line of this name is active, or the
DDS channel of this name if there is no such line. -/
structure LinesFirst (g : Grid) (registry : Registry) (timing : Timing) (s : Sequence) : Prop where
  last : g.times.getLast? = some (timing.cover s.declaredLength * timing.resolution)
  line : ∀ c ∈ registry.channels, g.Tells timing c.name (s.Active timing c.index.toNat)
  dds : ∀ d ∈ registry.dds, (∀ c ∈ registry.channels, c.name ≠ d.name) →
    g.Tells timing d.name (s.DdsActive timing d.index)

/-- A cell of a line tells whether a pulse covers the tick. -/
lemma lineActive_iff {line : UInt8} {tick : Nat} :
    lineActive s timing line tick = true ↔ s.Active timing line.toNat tick := by
  simp [lineActive, covers, Sequence.Active, TtlPulse.Covers, UInt8.toNat_inj]

/-- A cell of a DDS channel tells whether an event covers the tick. -/
lemma ddsActive_iff {channel : UInt8} {tick : Nat} :
    ddsActive s timing channel tick = true ↔ s.DdsActive timing channel tick := by
  simp [ddsActive, covers, Sequence.DdsActive, DdsEvent.Covers]

/-! ## From a time to a column -/

/-- A time between the first boundary and the last one has a column. -/
lemma exists_column {nanos first last : Nat} {times : List Nat} (hfirst : times.head? = some first)
    (hlast : times.getLast? = some last) (hle : first ≤ nanos) (hlt : nanos < last) :
    ∃ j a b, column? nanos times = some j ∧ times[j]? = some a ∧ times[j + 1]? = some b ∧
      a ≤ nanos ∧ nanos < b := by
  induction times generalizing first with
  | nil => cases hfirst
  | cons a times ih =>
    cases hfirst
    cases times with
    | nil =>
      cases hlast
      exact absurd hlt (Nat.not_lt_of_le hle)
    | cons b rest =>
      by_cases hb : nanos < b
      · exact ⟨0, a, b, if_pos ⟨hle, hb⟩, rfl, rfl, hle, hb⟩
      · obtain ⟨j, a', b', hcolumn, ha', hb', hbounds⟩ :=
          ih rfl (by rwa [List.getLast?_cons_cons] at hlast) (Nat.le_of_not_lt hb)
        refine ⟨j + 1, a', b', ?_, ha', hb', hbounds⟩
        rw [column?, if_neg fun h => hb h.2, hcolumn]
        rfl

/-! ## From a label to a row -/

section
variable {α : Type} {name : α → String} {xs : List α} {x : α}

/-- Of names that are all different the first one that fits is the only one. -/
lemma findIdx?_of_nodup (h : (xs.map name).Nodup) {i : Nat} (hx : xs[i]? = some x) :
    (xs.map name).findIdx? (· == name x) = some i := by
  have hi : (xs.map name)[i]? = some (name x) := by rw [List.getElem?_map, hx, Option.map_some]
  obtain ⟨hlt, hname⟩ := List.getElem?_eq_some_iff.mp hi
  refine List.findIdx?_eq_some_iff_getElem.mpr ⟨hlt, by simp [hname], fun j hj hfits => ?_⟩
  have hsame : (xs.map name)[j] = (xs.map name)[i] := by rw [hname]; simpa using hfits
  exact absurd ((List.Nodup.getElem_inj_iff h).mp hsame) (Nat.ne_of_lt hj)

/-- A label that is no name is not found. -/
lemma findIdx?_of_forall_ne {label : String} (h : ∀ x ∈ xs, name x ≠ label) :
    (xs.map name).findIdx? (· == label) = none := by
  simpa [List.findIdx?_eq_none_iff] using h

end

/-! ## The cell of a label and a time -/

/-- The cells of a label are those of the row that it leads to. They tell what the row is about if
nothing switches inside a column. -/
lemma tells_of_row {f : Nat → Bool} {active : Nat → Prop} {label : String} {row : Nat}
    (hres : timing.resolution ≠ 0)
    (htimes : g.times = (boundaries s timing total).map (· * timing.resolution))
    (hrow : g.labels.findIdx? (· == label) = some row)
    (hcells : g.cells[row]? = some ((boundaries s timing total).dropLast.map f))
    (hactive : ∀ t, f t = true ↔ active t)
    (hsteady : ∀ j a b t, (boundaries s timing total)[j]? = some a →
      (boundaries s timing total)[j + 1]? = some b → a ≤ t → t < b → f a = f t) :
    g.Tells timing label active := by
  intro last hlast nanos hnanos
  have hfirst : g.times.head? = some 0 := by
    rw [htimes, List.head?_map, head?_boundaries, Option.map_some, Nat.zero_mul]
  obtain ⟨j, a, b, hcolumn, ha, hb, hle, hlt⟩ :=
    exists_column hfirst hlast (Nat.zero_le nanos) hnanos
  rw [htimes, List.getElem?_map, Option.map_eq_some_iff] at ha hb
  obtain ⟨a, ha, rfl⟩ := ha
  obtain ⟨b, hb, rfl⟩ := hb
  have hpos := Nat.pos_of_ne_zero hres
  -- the column of a time begins no later than its tick, and ends after it
  have hat : a ≤ timing.ticks nanos := (Nat.le_div_iff_mul_le hpos).mpr hle
  have htb : timing.ticks nanos < b := (Nat.div_lt_iff_lt_mul hpos).mpr hlt
  refine ⟨f (timing.ticks nanos), ?_, hactive _⟩
  have hcell : g.isActive label nanos = g.cells[row]?.bind (·[j]?) := by
    rw [isActive, hrow, hcolumn]
    rfl
  rw [hcell, hcells, ← hsteady j a b _ ha hb hat htb]
  exact getElem?_columns f ha hb

section
variable (hres : timing.resolution ≠ 0) (htotal : s.totalTicks timing = .ok total)
  (hg : ofSequence s registry timing = .ok g)
include hres htotal hg

/-- The names of the lines come first, so each of them leads to its own row. -/
lemma tells_line (names : (registry.channels.map Channel.name).Nodup) {c : Channel}
    (hc : c ∈ registry.channels) : g.Tells timing c.name (s.Active timing c.index.toNat) := by
  cases (ofSequence_of_totalTicks htotal registry).symm.trans hg
  obtain ⟨i, hi⟩ := List.mem_iff_getElem?.mp hc
  obtain ⟨hlt, -⟩ := List.getElem?_eq_some_iff.mp hi
  have hrow : (registry.channels.map Channel.name ++ registry.dds.map DdsChannel.name).findIdx?
      (· == c.name) = some i := by
    rw [List.findIdx?_append, findIdx?_of_nodup names hi, Option.some_or]
  refine tells_of_row hres rfl hrow ?_ (fun _ => lineActive_iff)
    fun _ _ _ _ ha hb hat htb => lineActive_eq ha hb hat htb c.index
  rw [List.getElem?_append_left (by simpa using hlt), List.getElem?_map, hi, Option.map_some]

/-- The name of a DDS channel leads to its own row if no line has this name. -/
lemma tells_dds (names : (registry.dds.map DdsChannel.name).Nodup) {d : DdsChannel}
    (hd : d ∈ registry.dds) (hfree : ∀ c ∈ registry.channels, c.name ≠ d.name) :
    g.Tells timing d.name (s.DdsActive timing d.index) := by
  cases (ofSequence_of_totalTicks htotal registry).symm.trans hg
  obtain ⟨i, hi⟩ := List.mem_iff_getElem?.mp hd
  have hrow : (registry.channels.map Channel.name ++ registry.dds.map DdsChannel.name).findIdx?
      (· == d.name) = some (registry.channels.length + i) := by
    rw [List.findIdx?_append, findIdx?_of_forall_ne hfree, findIdx?_of_nodup names hi,
      Option.none_or, Option.map_some, List.length_map, Nat.add_comm]
  refine tells_of_row hres rfl hrow ?_ (fun _ => ddsActive_iff)
    fun _ _ _ _ ha hb hat htb => ddsActive_eq ha hb hat htb d.index
  rw [List.getElem?_append_right (by simp), List.length_map, Nat.add_sub_cancel_left,
    List.getElem?_map, hi, Option.map_some]

end

end Grid

namespace Builder

variable {config : Configuration} {registry : Registry}

section
variable (hregistry : Registry.ofConfiguration config = .ok registry)
include hregistry

/-- The sequence of every builder has a grid with the lines first. -/
lemma exists_linesFirst (requests : List Request) {s : Sequence}
    (hs : ((new registry config.timing).run requests).sequence = some s) :
    ∃ g, ((new registry config.timing).run requests).grid = .ok g ∧
      g.LinesFirst registry config.timing s := by
  have hres := resolution_ne_of_ofConfiguration hregistry
  have htotal := (compilable_of_run hregistry requests hs).total
  have hgrid := Grid.ofSequence_of_totalTicks htotal registry
  have hlast := congrArg (Option.map (· * config.timing.resolution))
    (Grid.getLast?_boundaries htotal)
  obtain ⟨perm, hdds⟩ := tables_of_ofConfiguration hregistry
  have unique := unique_of_ofConfiguration hregistry
  rw [run_eq hs]
  refine ⟨_, hgrid, ?_⟩
  constructor
  case last => rwa [List.getLast?_map]
  case line =>
    intro c hc
    exact Grid.tells_line hres htotal hgrid ((perm.map _).nodup_iff.mpr unique.channelNames) hc
  case dds =>
    intro d hd hfree
    exact Grid.tells_dds hres htotal hgrid (hdds ▸ unique.ddsNames) hd hfree

/-- No entry lasts a tick if the longest sequence does not. -/
lemma events_eq_nil_of_lt (hshort : config.timing.maxLength < config.timing.resolution)
    (requests : List Request) {s : Sequence}
    (hs : ((new registry config.timing).run requests).sequence = some s) : s.events = [] := by
  refine List.eq_nil_iff_forall_not_mem.mpr fun e he => ?_
  have hentry := (run_wellFormed hregistry requests hs).entries e he
  have hfits : ∃ start length, config.timing.Fits start length := by
    cases e with
    | ttl p => exact ⟨_, _, hentry.1⟩
    | dds e => exact ⟨_, _, hentry.1⟩
  obtain ⟨start, length, hend, hlasts⟩ := hfits
  omega

/-- A single pulse of one tick leads to this sequence. -/
lemma sequence_of_ttl {c : Channel} (hc : c ∈ registry.channels)
    (hroom : config.timing.resolution ≤ config.timing.maxLength) :
    ((new registry config.timing).run
      [.newSequence, .ttl ⟨c.name, 0, config.timing.resolution⟩]).sequence =
        some ⟨[.ttl ⟨c.index, 0, config.timing.resolution⟩], 0⟩ := by
  have hindex : registry.hardwareIndex c.name = .ok c.index :=
    (Registry.hardwareIndex_eq_ok hregistry).mpr
      ⟨c, (tables_of_ofConfiguration hregistry).1.mem_iff.mp hc, rfl, rfl⟩
  have hfits : config.timing.Fits 0 config.timing.resolution := ⟨by omega, Nat.le_refl _⟩
  have hpulse : (new registry config.timing).newSequence.perform
      (.ttl ⟨c.name, 0, config.timing.resolution⟩) = .ok _ :=
    addTtl_eq_ok.mpr ⟨⟨_, rfl⟩, _, ttlPulse_eq_ok.mpr ⟨_, hindex, hfits, rfl⟩, rfl⟩
  rw [run_newSequence_of_ok hpulse]
  rfl

/-- If a sequence has room for a pulse, then a pulse on a line shows in the cells of a DDS channel
with the name of the line. -/
lemma not_labelled_of_shared {c : Channel} {d : DdsChannel} (hc : c ∈ registry.channels)
    (hd : d ∈ registry.dds) (hshared : c.name = d.name)
    (hroom : config.timing.resolution ≤ config.timing.maxLength) :
    ∃ requests s g, ((new registry config.timing).run requests).sequence = some s ∧
      ((new registry config.timing).run requests).grid = .ok g ∧
      ¬g.Labelled registry config.timing s := by
  have hres := resolution_ne_of_ofConfiguration hregistry
  have hs := sequence_of_ttl hregistry hc hroom
  obtain ⟨g, hg, linesFirst⟩ := exists_linesFirst hregistry _ hs
  refine ⟨_, _, g, hs, hg, fun labelled => ?_⟩
  have hend := Nat.mul_pos (cover_pos_of_run hregistry _ hs (List.cons_ne_nil _ _))
    (Nat.pos_of_ne_zero hres)
  obtain ⟨b, hcell, hb⟩ := linesFirst.line c hc _ linesFirst.last 0 hend
  obtain ⟨b', hcell', hb'⟩ := labelled.dds d hd _ linesFirst.last 0 hend
  have hactive : b = true := hb.mpr
    ⟨_, List.mem_cons_self, rfl, Nat.le_refl _, Timing.ticks_lt_of_le hres (Nat.le_refl _)⟩
  have hidle : b' ≠ true := fun h => by
    obtain ⟨e, he, -⟩ := hb'.mp h
    cases he
  rw [hshared, hcell'] at hcell
  cases hcell
  exact hidle hactive

/-- Every sequence of a builder has a grid, whose labels tell about the lines first. All of them
tell about their own channels exactly if no DDS channel has the name of a line, or if nothing has
room in a sequence at all. -/
theorem labelled_iff :
    (∀ requests s, ((new registry config.timing).run requests).sequence = some s →
      ∃ g, ((new registry config.timing).run requests).grid = .ok g ∧
        g.LinesFirst registry config.timing s) ∧
    ((∀ requests s g, ((new registry config.timing).run requests).sequence = some s →
      ((new registry config.timing).run requests).grid = .ok g →
        g.Labelled registry config.timing s) ↔
      (∀ c ∈ registry.channels, ∀ d ∈ registry.dds, c.name ≠ d.name) ∨
        config.timing.maxLength < config.timing.resolution) := by
  refine ⟨fun requests s hs => exists_linesFirst hregistry requests hs, fun hlaw => ?_, ?_⟩
  · by_contra hbroken
    push Not at hbroken
    obtain ⟨⟨c, hc, d, hd, hshared⟩, hroom⟩ := hbroken
    obtain ⟨requests, s, g, hs, hg, hnot⟩ := not_labelled_of_shared hregistry hc hd hshared hroom
    exact hnot (hlaw requests s g hs hg)
  · intro hnames requests s g hs hg
    obtain ⟨g', hg', linesFirst⟩ := exists_linesFirst hregistry requests hs
    cases hg.symm.trans hg'
    refine ⟨linesFirst.line, fun d hd => ?_⟩
    rcases hnames with hnames | hshort
    · exact linesFirst.dds d hd fun c hc => hnames c hc d hd
    · by_cases hfree : ∀ c ∈ registry.channels, c.name ≠ d.name
      · exact linesFirst.dds d hd hfree
      · -- the label leads to a line, and neither the line nor the channel is ever active
        push Not at hfree
        obtain ⟨c, hc, hname⟩ := hfree
        have hnone := events_eq_nil_of_lt hregistry hshort requests hs
        have hidle : s.DdsActive config.timing d.index = s.Active config.timing c.index.toNat := by
          funext tick
          simp [Sequence.DdsActive, Sequence.Active, Sequence.ddsEvents, Sequence.ttlPulses,
            hnone]
        rw [← hname, hidle]
        exact linesFirst.line c hc

end

/-- The names of the board with a shutter and a repumper are apart. -/
theorem repump_labelled :
    Registry.ofConfiguration repumpConfiguration = .ok repumpRegistry ∧
      ∀ requests s g,
        ((new repumpRegistry repumpConfiguration.timing).run requests).sequence = some s →
        ((new repumpRegistry repumpConfiguration.timing).run requests).grid = .ok g →
          g.Labelled repumpRegistry repumpConfiguration.timing s := by
  refine ⟨ofConfiguration_repump, ?_⟩
  exact (labelled_iff ofConfiguration_repump).2.mpr (.inl (by decide))

/-- A board with a line and a DDS channel that have the same name. -/
def sharedConfiguration : Configuration :=
  { Configuration.default with
    channels := [.auto "probe" 0], dds := [.standard "probe" 0 ⟨90.0, 130.0⟩ ⟨-63.0, -3.0⟩] }

/-- The registry of `sharedConfiguration`. -/
def sharedRegistry : Registry := ⟨sharedConfiguration.channels, sharedConfiguration.dds⟩

set_option maxRecDepth 20000 in
/-- The configuration is accepted. -/
lemma ofConfiguration_shared :
    Registry.ofConfiguration sharedConfiguration = .ok sharedRegistry := by
  have hvalid : sharedConfiguration.validate = .ok () := rfl
  exact ofConfiguration_of_ordered hvalid (List.pairwise_singleton _ _)

/-- While the DDS channel is on, the cell of its name is that of the line, which is low. -/
theorem shared_label_misled :
    Registry.ofConfiguration sharedConfiguration = .ok sharedRegistry ∧
      ∃ d ∈ sharedRegistry.dds, ∃ s g,
        ((new sharedRegistry sharedConfiguration.timing).run
          [.newSequence, .dds ⟨"probe", 0, 400, 110.0, -10.0, none, none⟩]).sequence = some s ∧
        ((new sharedRegistry sharedConfiguration.timing).run
          [.newSequence, .dds ⟨"probe", 0, 400, 110.0, -10.0, none, none⟩]).grid = .ok g ∧
        s.DdsActive sharedConfiguration.timing d.index 0 ∧ g.times.getLast? = some 400 ∧
        g.isActive d.name 0 = some false := by
  refine ⟨ofConfiguration_shared, _, List.mem_cons_self,
    ⟨[.dds ⟨0, 0, 400, 110.0, -10.0, none, none⟩], 0⟩,
    ⟨[0, 400], ["probe", "probe"], [[false], [true]]⟩, rfl, rfl, ?_, rfl, rfl⟩
  exact ⟨_, List.mem_cons_self, rfl, by decide⟩

end Builder

end PulseSequencer
