import PulseSequencer.Proofs.Configuration
import PulseSequencer.Proofs.Program.Waveform
import PulseSequencer.Proofs.Sequence.Grid
import PulseSequencer.Proofs.Sequence.Transition

/-!
# The grid of a sequence shows its program

The grid looks at each pulse at the beginning of each column; a program is the outcome of a sweep
over the edges of the pulses. Both show the same lines and channels in every tick.

* `Grid.cell?`, `Grid.InColumn`: a cell, and the ticks of a column.
* `Grid.Shows`: a grid shows a program and the changes of its DDS channels.
* `Compiled.getLsbD_maskAt`, `Timing.Separate.ddsActive_eq`: lines and channels in a tick.
* `Builder.grid_shows_program`: the grid of a builder shows its program; `exposure_in_grid` is a
  case of it.
-/

namespace PulseSequencer

namespace Grid

/-- The cell in a row and a column. -/
def cell? (g : Grid) (row column : Nat) : Option Bool := do
  let cells ← g.cells[row]?
  cells[column]?

/-- A tick lies in a column. -/
def InColumn (g : Grid) (timing : Timing) (column tick : Nat) : Prop :=
  ∃ a b, g.times[column]? = some a ∧ g.times[column + 1]? = some b ∧
    a ≤ tick * timing.resolution ∧ tick * timing.resolution < b

/-- A grid shows a program and changes of DDS channels: its times lead from 0 to the end of the
program, with a column between any two, and in each tick of a column the cell of a TTL line is the
bit of the line in the output mask, and the cell of a DDS channel tells whether its last change up
to this tick switched it on. -/
structure Shows (g : Grid) (registry : Registry) (timing : Timing) (p : Program)
    (changes : List Transition) : Prop where
  increasing : g.times.Pairwise (· < ·)
  first : g.times.head? = some 0
  last : g.times.getLast? = some (p.totalTicks * timing.resolution)
  rows : g.cells.length = registry.channels.length + registry.dds.length
  columns : ∀ row ∈ g.cells, row.length + 1 = g.times.length
  line : ∀ column tick, g.InColumn timing column tick →
    ∀ row c, registry.channels[row]? = some c →
      g.cell? row column = some ((p.maskAt tick).getLsbD c.index.toNat)
  dds : ∀ column tick, g.InColumn timing column tick →
    ∀ row d, registry.dds[row]? = some d →
      g.cell? (registry.channels.length + row) column =
        some ((Transition.latest d.index tick changes).any (·.on))

end Grid

section

variable {s : Sequence} {registry : Registry} {timing : Timing} {p : Program}
  {ttl : List TtlRecord} {dds : List DdsRecord}

/-- A line of a compiled program is high in a tick if the grid counts it as active. -/
lemma Compiled.getLsbD_maskAt (h : Compiled s registry timing p ttl dds) {t : Nat}
    (ht : t < p.totalTicks) {line : UInt8} (hline : line.toNat < lineLimit) :
    (p.maskAt t).getLsbD line.toNat = Grid.lineActive s timing line t := by
  have written := compileTtl_written h.ttlSection
  rw [Program.maskAt_of_lt ht, h.ttlRecords, latest_of_written written, Edge.latest_entries _ ht,
    Edge.getLsbD_mask _ _ hline, Bool.eq_iff_iff, Edge.high_iff, Grid.lineActive, List.any_eq_true]
  simp [Grid.covers, TtlPulse.Covers, UInt8.toNat_inj]

/-- A DDS channel was switched on last if the grid counts it as active. -/
lemma Timing.Separate.ddsActive_eq {timing' : Timing} (sep : timing.Separate s.ddsEvents)
    (hres : timing.resolution ≠ 0) (c : UInt8) (t : Nat) :
    Grid.ddsActive s timing' c t =
      (Transition.latest c t (s.transitions timing')).any (·.on) := by
  have hactive : Grid.ddsActive s timing' c t = true ↔
      ∃ e ∈ s.ddsEvents, e.channel = c ∧ e.Covers timing' t := by
    simp [Grid.ddsActive, Grid.covers, DdsEvent.Covers]
  by_cases hcovered : ∃ e ∈ s.ddsEvents, e.channel = c ∧ e.Covers timing' t
  · rw [hactive.mpr hcovered]
    obtain ⟨e, he, rfl, covers⟩ := hcovered
    rw [s.latest_transitions_of_covers sep hres he covers]
    rfl
  · rw [Bool.eq_false_iff.mpr (hactive.not.mpr hcovered)]
    cases hlast : Transition.latest c t (s.transitions timing') with
    | none => rfl
    | some x =>
      have hnone : ∀ e ∈ s.ddsEvents, e.channel = c → ¬e.Covers timing' t :=
        fun e he hc covers => hcovered ⟨e, he, hc, covers⟩
      obtain ⟨e, _, _, rfl⟩ := s.latest_transitions_of_not_covers sep hres hnone hlast
      rfl

/-- The ticks of a column lie between two neighbouring boundaries. -/
lemma Grid.boundaries_of_inColumn {g : Grid} {ticks : List Nat} (hres : timing.resolution ≠ 0)
    (htimes : g.times = ticks.map (· * timing.resolution)) {column t : Nat}
    (h : g.InColumn timing column t) :
    ∃ a b, ticks[column]? = some a ∧ ticks[column + 1]? = some b ∧ a ≤ t ∧ t < b := by
  obtain ⟨a', b', ha', hb', hat, htb⟩ := h
  rw [htimes, List.getElem?_map, Option.map_eq_some_iff] at ha' hb'
  obtain ⟨a, ha, rfl⟩ := ha'
  obtain ⟨b, hb, rfl⟩ := hb'
  exact ⟨a, b, ha, hb, Nat.le_of_mul_le_mul_right hat (Nat.pos_of_ne_zero hres),
    Nat.lt_of_mul_lt_mul_right htb⟩

/-- The grid of a sequence that was compiled shows its program. -/
lemma Compiled.grid_shows {timing' : Timing} (h : Compiled s registry timing p ttl dds)
    (sep : timing'.Separate s.ddsEvents) (hres' : timing'.resolution ≠ 0)
    (hlines : ∀ c ∈ registry.channels, c.index.toNat < lineLimit) :
    ∃ g, Grid.ofSequence s registry timing = .ok g ∧
      g.Shows registry timing p (s.transitions timing) := by
  have hres : timing.resolution ≠ 0 := (Timing.ceilTicks_eq_ok.mp h.total).1
  refine ⟨_, Grid.ofSequence_of_totalTicks h.total registry, ?_⟩
  have hpos : 0 < timing.resolution := Nat.pos_of_ne_zero hres
  constructor
  case increasing =>
    refine List.pairwise_map.mpr ((Grid.boundaries_increasing _ _ _).imp fun hlt => ?_)
    exact Nat.mul_lt_mul_of_pos_right hlt hpos
  case first =>
    rw [List.head?_map, Grid.head?_boundaries, Option.map_some, Nat.zero_mul]
  case last =>
    rw [List.getLast?_map, Grid.getLast?_boundaries h.total, Option.map_some]
  case rows =>
    simp
  case columns =>
    exact (Grid.rectangular_of_ofSequence (Grid.ofSequence_of_totalTicks h.total registry)).columns
  case line =>
    intro column t hcolumn row c hrow
    -- what the cell says in the first tick of the column holds in all of them
    obtain ⟨a, b, ha, hb, hat, htb⟩ := Grid.boundaries_of_inColumn hres rfl hcolumn
    have hend : b ≤ p.totalTicks := Grid.le_of_mem_boundaries h.total (List.mem_of_getElem? hb)
    obtain ⟨hlt, -⟩ := List.getElem?_eq_some_iff.mp hrow
    have hline := hlines c (List.mem_of_getElem? hrow)
    rw [h.getLsbD_maskAt (Nat.lt_of_lt_of_le htb hend) hline,
      ← Grid.lineActive_eq ha hb hat htb c.index, Grid.cell?,
      List.getElem?_append_left (by simpa using hlt), List.getElem?_map, hrow]
    exact Grid.getElem?_columns _ ha hb
  case dds =>
    intro column t hcolumn row d hrow
    obtain ⟨a, b, ha, hb, hat, htb⟩ := Grid.boundaries_of_inColumn hres rfl hcolumn
    rw [← sep.ddsActive_eq hres', ← Grid.ddsActive_eq ha hb hat htb d.index, Grid.cell?,
      List.getElem?_append_right (by simp), List.length_map, Nat.add_sub_cancel_left,
      List.getElem?_map, hrow]
    exact Grid.getElem?_columns _ ha hb

end

namespace Builder

/-- The grid of a builder shows the program of its sequence. -/
theorem grid_shows_program {config : Configuration} {registry : Registry}
    (hregistry : Registry.ofConfiguration config = .ok registry) (requests : List Request)
    {p : Program} (hp : ((new registry config.timing).run requests).compile = .ok p) :
    ∃ s g, ((new registry config.timing).run requests).sequence = some s ∧
      ((new registry config.timing).run requests).grid = .ok g ∧
      g.Shows registry config.timing p (s.transitions config.timing) := by
  obtain ⟨sameRegistry, sameTiming⟩ := run_setup (new registry config.timing) requests
  cases hs : ((new registry config.timing).run requests).sequence with
  | none =>
    rw [Builder.compile, hs] at hp
    cases hp
  | some s =>
    rw [Builder.compile, hs, sameRegistry, sameTiming] at hp
    obtain ⟨ttl, dds, compiled⟩ := Compiled.of_compile hp
    obtain ⟨g, hg, shows⟩ := compiled.grid_shows (run_separate registry config.timing requests hs)
      (resolution_ne_of_ofConfiguration hregistry) (index_lt_of_ofConfiguration hregistry)
    refine ⟨s, g, rfl, ?_, shows⟩
    rw [Builder.grid, Result.bind_eq_ok, sameRegistry, sameTiming]
    exact ⟨s, current_eq_ok.mpr hs, hg⟩

/-- A board with a camera on line 4 and one synthesizer channel. -/
def imagingConfiguration : Configuration :=
  { Configuration.default with
    channels := [.auto "camera" 4], dds := [.standard "probe" 1 ⟨150.0, 250.0⟩ ⟨-63.0, -3.0⟩] }

/-- The registry of `imagingConfiguration`. -/
def imagingRegistry : Registry := ⟨imagingConfiguration.channels, imagingConfiguration.dds⟩

set_option maxRecDepth 20000 in
/-- The configuration is accepted. -/
lemma ofConfiguration_imaging :
    Registry.ofConfiguration imagingConfiguration = .ok imagingRegistry := by
  have hvalid : imagingConfiguration.validate = .ok () := rfl
  exact ofConfiguration_of_ordered hvalid (List.pairwise_singleton _ _)

/-- The camera is open until tick 15, the probe is on from tick 10 to tick 20. -/
def imaging : Sequence :=
  ⟨[.ttl ⟨4, 0, 600⟩, .dds ⟨1, 410, 400, 200.0, -10.0, none, none⟩], 0⟩

/-- The requests that `imaging` is made of. -/
def imagingRequests : List Request :=
  [.newSequence, .ttl ⟨"camera", 0, 600⟩, .dds ⟨"probe", 410, 400, 200.0, -10.0, none, none⟩]

/-- The requests lead to the sequence. -/
lemma run_imagingRequests :
    (new imagingRegistry imagingConfiguration.timing).run imagingRequests =
      ⟨imagingRegistry, imagingConfiguration.timing, some imaging⟩ :=
  rfl

/-- The probe is switched on and off. -/
lemma imaging_transitions :
    imaging.transitions imagingConfiguration.timing =
      [.rise imagingConfiguration.timing ⟨1, 410, 400, 200.0, -10.0, none, none⟩,
        .fall imagingConfiguration.timing ⟨1, 410, 400, 200.0, -10.0, none, none⟩] := by
  change List.mergeSort (Transition.walk _ (List.mergeSort [_] _)) _ = _
  rw [List.mergeSort_singleton, List.mergeSort_of_pairwise (by decide)]
  rfl

set_option maxRecDepth 4000 in
/-- The sequence has a program. -/
lemma compile_imaging :
    ∃ p,
      ((new imagingRegistry imagingConfiguration.timing).run imagingRequests).compile =
        .ok p := by
  have httl : compileTtl [⟨4, 0, 600⟩] ⟨40, 85000000000⟩ 21 =
      .ok [⟨0, 16⟩, ⟨15, 0⟩, ⟨21, 0⟩] := by cbv
  have hdds : ∃ records,
      compileDds imaging imagingRegistry imagingConfiguration.timing = .ok records := by
    rw [compileDds, imaging_transitions]
    simp [ddsRecord, Registry.ddsAt?, imagingRegistry, imagingConfiguration, DdsChannel.standard,
      Transition.rise, Transition.fall, tickWord, Timing.ticks, Configuration.timing, Word.count,
      Configuration.default, DdsEvent.finish, Except.bind, Except.pure, bind, pure]
  obtain ⟨records, hrecords⟩ := hdds
  have compiled : Compiled imaging imagingRegistry imagingConfiguration.timing
      ⟨Program.ofRecords [⟨0, 16⟩, ⟨15, 0⟩, ⟨21, 0⟩] records, 21⟩
      [⟨0, 16⟩, ⟨15, 0⟩, ⟨21, 0⟩] records :=
    ⟨by decide, rfl, Nat.noConfusion, httl, hrecords, rfl⟩
  rw [run_imagingRequests]
  exact ⟨_, compiled.compile_eq_ok⟩

/-- The grid shows an exposure that overlaps a pulse of the probe. -/
theorem exposure_in_grid :
    ∃ p, Registry.ofConfiguration imagingConfiguration = .ok imagingRegistry ∧
      ((new imagingRegistry imagingConfiguration.timing).run imagingRequests).compile = .ok p ∧
      ∃ s g,
        ((new imagingRegistry imagingConfiguration.timing).run imagingRequests).sequence = some s ∧
        ((new imagingRegistry imagingConfiguration.timing).run imagingRequests).grid = .ok g ∧
        g.Shows imagingRegistry imagingConfiguration.timing p
          (s.transitions imagingConfiguration.timing) := by
  obtain ⟨p, hp⟩ := compile_imaging
  exact ⟨p, ofConfiguration_imaging, hp, grid_shows_program ofConfiguration_imaging _ hp⟩

end Builder

end PulseSequencer
