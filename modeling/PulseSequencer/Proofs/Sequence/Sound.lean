import PulseSequencer.Proofs.Sequence.Entries
import PulseSequencer.Proofs.Sequence.Batch
import PulseSequencer.Proofs.Configuration

/-!
# Sound sequences

Whatever is requested of a builder, its sequence is sound: every entry fits and is on a line or a
DDS channel of the registry, and the explicit length does not exceed the longest sequence.

* `Event.Sound`, `Sequence.Sound`: what entries and sequences have passed.
* `Builder.perform_sound`: an accepted request keeps the sequence sound.
* `Builder.run_sound`: the sequences that a builder comes to hold are sound.
-/

namespace PulseSequencer

/-- An entry fits, and is on a line or a DDS channel of the registry. -/
def Event.Sound (registry : Registry) (timing : Timing) : Event → Prop
  | ttl p => timing.Fits p.start p.length ∧ registry.HasLine p.line
  | dds e => timing.Fits e.start e.length ∧ ∃ d ∈ registry.dds, d.index = e.channel

/-- The entries of a sequence are sound, and its explicit length is not too long. -/
structure Sequence.Sound (registry : Registry) (timing : Timing) (s : Sequence) : Prop where
  extended_le : s.extended ≤ timing.maxLength
  events : ∀ e ∈ s.events, e.Sound registry timing

namespace Sequence.Sound

variable {registry : Registry} {timing : Timing} {s : Sequence} (h : s.Sound registry timing)
include h

/-- No entry ends after the longest sequence. -/
lemma finish_le {e : Event} (he : e ∈ s.events) : e.finish ≤ timing.maxLength := by
  have sound := h.events e he
  cases e with
  | ttl p => exact sound.1.1
  | dds e => exact sound.1.1

/-- A sound sequence is not too long. -/
lemma declaredLength_le : s.declaredLength ≤ timing.maxLength :=
  Nat.max_le.mpr ⟨h.extended_le, finish_le_iff.mpr fun _ => h.finish_le⟩

end Sequence.Sound

namespace Builder

variable {b b' : Builder}

/-- The current sequence, if there is one, is sound. -/
def Sound (b : Builder) : Prop := ∀ s, b.sequence = some s → s.Sound b.registry b.timing

/-- The pulse of an accepted request is sound. -/
lemma sound_of_ttlPulse {r : TtlRequest} {p : TtlPulse} (h : b.ttlPulse r = .ok p) :
    (Event.ttl p).Sound b.registry b.timing := by
  obtain ⟨line, hline, hfits, rfl⟩ := ttlPulse_eq_ok.mp h
  exact ⟨hfits, r.channel, hline⟩

/-- The event of an accepted request is sound. -/
lemma sound_of_ddsEvent {pending : List DdsEvent} {r : DdsRequest} {e : DdsEvent}
    (h : b.ddsEvent pending r = .ok e) : (Event.dds e).Sound b.registry b.timing := by
  obtain ⟨⟨d, hd, -, -, -, -, rfl⟩, hfits, -⟩ := ddsEvent_eq_ok.mp h
  refine ⟨hfits, d, ?_, rfl⟩
  unfold Registry.ddsNamed at hd
  split at hd
  case h_1 hfind =>
    cases hd
    exact List.mem_of_find?_eq_some hfind
  case h_2 => cases hd

/-- Sound entries keep the sequence sound. -/
lemma push_sound (h : b.Sound) {events : List Event}
    (hevents : ∀ e ∈ events, e.Sound b.registry b.timing) : (b.push events).Sound := by
  intro s' hs'
  obtain ⟨s, hs, rfl⟩ := Option.map_eq_some_iff.mp hs'
  refine ⟨(h s hs).extended_le, fun e he => ?_⟩
  rcases List.mem_append.mp he with he | he
  · exact (h s hs).events e he
  · exact hevents e he

/-- A new sequence is sound. -/
lemma newSequence_sound : b.newSequence.Sound := by
  intro s hs
  cases hs
  exact ⟨Nat.zero_le _, nofun⟩

/-- A request that is accepted keeps the sequence sound. -/
lemma single_sound {q : Request} (hsingle : q.single = true) (hq : b.perform q = .ok b')
    (h : b.Sound) : b'.Sound := by
  cases q with
  | newSequence | ttls _ | ddss _ => cases hsingle
  | ttl r =>
    obtain ⟨-, p, hp, rfl⟩ := addTtl_eq_ok.mp hq
    exact push_sound h (List.forall_mem_singleton.mpr (sound_of_ttlPulse hp))
  | dds r =>
    obtain ⟨-, e, he, rfl⟩ := addDds_eq_ok.mp hq
    exact push_sound h (List.forall_mem_singleton.mpr (sound_of_ddsEvent he))
  | extend length =>
    obtain ⟨-, hlength, rfl⟩ := extend_eq_ok.mp hq
    intro s' hs'
    obtain ⟨s, hs, rfl⟩ := Option.map_eq_some_iff.mp hs'
    exact ⟨Nat.max_le.mpr ⟨(h s hs).extended_le, hlength⟩, (h s hs).events⟩

/-- An accepted request keeps the sequence sound. -/
lemma perform_sound {q : Request} (hq : b.perform q = .ok b') (h : b.Sound) : b'.Sound :=
  perform_keeps single_sound (fun _ => newSequence_sound) hq h

/-- The sequences that a builder comes to hold are sound. -/
lemma run_sound (h : b.Sound) (requests : List Request) : (b.run requests).Sound :=
  run_invariant perform_sound h requests

/-- A new builder is sound. -/
lemma new_sound (registry : Registry) (timing : Timing) : (new registry timing).Sound := nofun

end Builder

end PulseSequencer
