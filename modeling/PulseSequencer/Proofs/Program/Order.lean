import PulseSequencer.Proofs.Program.Grid
import PulseSequencer.Proofs.Sequence.Requests

/-!
# The order of building

Neither a program nor a grid depends on the order in which the entries of a sequence were added. The
edges of the pulses are counted, and the ticks at which there are some are sorted. The DDS events
are sorted by channel and start, and two of them that were equal in this order would overlap.

* `compileTtl_eq_of_perm`: pulses in any order.
* `Timing.Separate.mergeSort_eq`: DDS events in any order.
* `Sequence.Similar.compile_eq`, `Sequence.Similar.grid_eq`: sequences with the same entries.
* `Builder.performAll_order`: requests in any order; `probing_backwards` is a case of it.
-/

namespace PulseSequencer

/-! ## Pulses in any order -/

namespace Edge

variable {edges edges' : List Edge}

/-- The order of edges does not matter to a line. -/
lemma high_eq_of_perm (perm : edges.Perm edges') (line tick : Nat) :
    high edges line tick = high edges' line tick := by
  rw [high, high, passed, passed, passed, passed, perm.countP_eq, perm.countP_eq]

/-- The order of edges does not matter to the mask. -/
lemma mask_eq_of_perm (perm : edges.Perm edges') : mask edges = mask edges' := by
  funext tick
  simp only [mask, high_eq_of_perm perm]

/-- The order of edges does not matter to the ticks at which there are some. -/
lemma ticksWithin_eq_of_perm (perm : edges.Perm edges') (total : Nat) :
    ticksWithin edges total = ticksWithin edges' total := by
  refine List.Perm.eq_of_pairwise (fun _ _ _ _ => Nat.le_antisymm) (ticksWithin_sorted edges total)
    (ticksWithin_sorted edges' total) ?_
  have within := (perm.map Edge.tick).filter fun t => decide (0 < t ∧ t < total)
  exact (List.mergeSort_perm _ _).trans (within.trans (List.mergeSort_perm _ _).symm)

end Edge

/-- The order of pulses does not matter to the TTL section. -/
lemma compileTtl_eq_of_perm {pulses pulses' : List TtlPulse} (perm : pulses.Perm pulses')
    (timing : Timing) (total : Nat) :
    compileTtl pulses timing total = compileTtl pulses' timing total := by
  have edges : (Edge.ofPulses timing pulses).Perm (Edge.ofPulses timing pulses') :=
    perm.flatMap_right _
  simp only [compileTtl, perm.all_eq, Edge.mask_eq_of_perm edges, Edge.ticksWithin_eq_of_perm edges]

/-! ## DDS events in any order -/

namespace Timing.Separate

variable {timing : Timing} {events events' : List DdsEvent}

/-- Events that come at the same place in the order of channels and starts are one event. -/
lemma eq_of_eventLe (sep : timing.Separate events) (hres : timing.resolution ≠ 0) {a b : DdsEvent}
    (ha : a ∈ events) (hb : b ∈ events) (hab : Transition.eventLe a b = true)
    (hba : Transition.eventLe b a = true) : a = b := by
  rw [Transition.eventLe_iff] at hab hba
  have channel : a.channel = b.channel := by
    rw [← UInt8.toNat_inj] at *
    omega
  by_contra hne
  have symmetric : Std.Symm fun a b : DdsEvent => a.overlaps b = false :=
    ⟨fun _ _ => DdsEvent.overlaps_comm⟩
  have apart := DdsEvent.overlaps_eq_false.mp (sep.apart.forall ha hb hne) channel
  -- they begin at the same time, and each lasts at least a tick
  obtain ⟨-, hlength⟩ := sep.fits a ha
  obtain ⟨-, hlength'⟩ := sep.fits b hb
  rw [channel] at hab hba
  unfold DdsEvent.finish at apart
  omega

/-- The order of channels and starts leaves no choice. -/
lemma mergeSort_eq (sep : timing.Separate events) (hres : timing.resolution ≠ 0)
    (perm : events.Perm events') :
    events.mergeSort Transition.eventLe = events'.mergeSort Transition.eventLe := by
  refine List.Perm.eq_of_pairwise (fun a b ha hb => ?_)
    (List.pairwise_mergeSort Transition.eventLe_trans Transition.eventLe_total events)
    (List.pairwise_mergeSort Transition.eventLe_trans Transition.eventLe_total events')
    ((List.mergeSort_perm _ _).trans (perm.trans (List.mergeSort_perm _ _).symm))
  exact sep.eq_of_eventLe hres (List.mem_mergeSort.mp ha)
    (perm.mem_iff.mpr (List.mem_mergeSort.mp hb))

end Timing.Separate

/-! ## Sequences with the same entries -/

namespace Sequence.Similar

variable {s s' : Sequence} {timing : Timing}

/-- Similar sequences end at the same time. -/
lemma finish_eq (h : s.Similar s') : s.finish = s'.finish := by
  apply Nat.le_antisymm
  · exact finish_le_iff.mpr fun e he => finish_le_iff.mp (Nat.le_refl _) e (h.events.mem_iff.mp he)
  · exact finish_le_iff.mpr fun e he => finish_le_iff.mp (Nat.le_refl _) e (h.events.mem_iff.mpr he)

/-- Similar sequences are equally long. -/
lemma declaredLength_eq (h : s.Similar s') : s.declaredLength = s'.declaredLength := by
  rw [declaredLength, declaredLength, h.extended, h.finish_eq]

/-- Similar sequences have the same number of ticks. -/
lemma totalTicks_eq (h : s.Similar s') (timing : Timing) :
    s.totalTicks timing = s'.totalTicks timing := by
  rw [totalTicks, totalTicks, h.declaredLength_eq]

/-- Similar sequences have the same DDS changes, if events on a channel are separate. -/
lemma transitions_eq (h : s.Similar s') (sep : timing.Separate s.ddsEvents)
    (hres : timing.resolution ≠ 0) (timing' : Timing) :
    s.transitions timing' = s'.transitions timing' := by
  rw [transitions, transitions, sep.mergeSort_eq hres h.ddsEvents]

/-- Similar sequences have the same program, if events on a channel are separate. -/
lemma compile_eq (h : s.Similar s') (sep : timing.Separate s.ddsEvents)
    (hres : timing.resolution ≠ 0) (registry : Registry) (timing' : Timing) :
    compile s registry timing' = compile s' registry timing' := by
  simp only [compile, compileDds, h.declaredLength_eq, h.totalTicks_eq timing',
    compileTtl_eq_of_perm h.ttlPulses timing', h.transitions_eq sep hres timing']

/-- Similar sequences have the same boundaries. -/
lemma boundaries_eq (h : s.Similar s') (timing : Timing) (total : Nat) :
    Grid.boundaries s timing total = Grid.boundaries s' timing total := by
  refine List.Pairwise.eq_of_mem_iff (Grid.boundaries_increasing s timing total)
    (Grid.boundaries_increasing s' timing total) fun x => ?_
  simp only [Grid.mem_boundaries, h.events.mem_iff]

/-- Similar sequences have the same grid. -/
lemma grid_eq (h : s.Similar s') (registry : Registry) (timing : Timing) :
    Grid.ofSequence s registry timing = Grid.ofSequence s' registry timing := by
  have lines (c : UInt8) : Grid.lineActive s timing c = Grid.lineActive s' timing c := by
    funext t
    exact h.ttlPulses.any_eq
  have dds (c : UInt8) : Grid.ddsActive s timing c = Grid.ddsActive s' timing c := by
    funext t
    exact h.ddsEvents.any_eq
  simp only [Grid.ofSequence, h.totalTicks_eq timing, h.boundaries_eq timing, lines, dds]

end Sequence.Similar

/-! ## Requests in any order -/

namespace Builder

/-- Requests that are accepted in full on a new sequence are so in any other order, and lead to the
same program, or refusal to compile, and to the same grid. -/
theorem performAll_order {config : Configuration} {registry : Registry}
    (hregistry : Registry.ofConfiguration config = .ok registry) (earlier : List Request)
    {requests requests' : List Request} (single : ∀ q ∈ requests, q.single = true)
    (perm : requests.Perm requests') {b : Builder}
    (h : (((new registry config.timing).run earlier).newSequence).performAll requests = .ok b) :
    ∃ b', (((new registry config.timing).run earlier).newSequence).performAll requests' = .ok b' ∧
      b'.compile = b.compile ∧ b'.grid = b.grid := by
  obtain ⟨sameRegistry, sameTiming⟩ := run_setup (new registry config.timing) earlier
  have fresh : ((new registry config.timing).run earlier).newSequence =
      ⟨registry, config.timing, some .empty⟩ := by
    rw [newSequence, sameRegistry, sameTiming]
    rfl
  have hrun : (new registry config.timing).run (earlier ++ .newSequence :: requests) = b := by
    rw [run, List.foldl_append]
    exact run_of_performAll h
  rw [fresh] at h ⊢
  obtain ⟨t, t', similar, rfl, h'⟩ := performAll_perm single perm Sequence.apart_empty h
  have sep : config.timing.Separate t.ddsEvents :=
    run_separate registry config.timing _ (congrArg Builder.sequence hrun)
  have hres := resolution_ne_of_ofConfiguration hregistry
  refine ⟨_, h', ?_, ?_⟩
  · exact (similar.compile_eq sep hres registry config.timing).symm
  · exact (similar.grid_eq registry config.timing).symm

/-- An exposure, two pulses of the probe that follow each other, and a pause. -/
def probing : List Request :=
  [.ttl ⟨"camera", 0, 600⟩, .dds ⟨"probe", 410, 400, 200.0, -10.0, none, none⟩,
    .dds ⟨"probe", 810, 400, 210.0, -10.0, none, none⟩, .extend 2000]

/-- The requests are accepted. -/
lemma performAll_probing : ∃ b,
    (((new imagingRegistry imagingConfiguration.timing).run []).newSequence).performAll probing =
      .ok b :=
  ⟨_, rfl⟩

/-- The same requests from the last to the first. -/
theorem probing_backwards : ∃ b,
    Registry.ofConfiguration imagingConfiguration = .ok imagingRegistry ∧
      (∀ q ∈ probing, q.single = true) ∧ probing.Perm probing.reverse ∧
      (((new imagingRegistry imagingConfiguration.timing).run []).newSequence).performAll probing =
        .ok b ∧
      ∃ b', (((new imagingRegistry imagingConfiguration.timing).run []).newSequence).performAll
          probing.reverse = .ok b' ∧
        b'.compile = b.compile ∧ b'.grid = b.grid := by
  have single : ∀ q ∈ probing, q.single = true := by simp [probing, Request.single]
  have perm := (List.reverse_perm probing).symm
  obtain ⟨b, h⟩ := performAll_probing
  exact ⟨b, ofConfiguration_imaging, single, perm, h,
    performAll_order ofConfiguration_imaging [] single perm h⟩

end Builder

end PulseSequencer
