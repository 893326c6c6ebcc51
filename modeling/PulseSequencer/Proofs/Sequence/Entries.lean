import PulseSequencer.Sequence
import PulseSequencer.Proofs.Result

/-!
# The entries of a sequence and its length

A sequence is no shorter than any of its entries. Its length in ticks is rounded up while the ends
of the entries are rounded down, so none of them lies beyond it in ticks either.

* `Timing.ceilTicks_eq_ok`, `Timing.ticks_le_cover`: times that are rounded up.
* `Sequence.mem_ttlPulses`, `Sequence.mem_ddsEvents`: the two kinds of entries.
* `Sequence.finish_le_iff`: no entry ends after a time.
* `Sequence.declaredLength_append_le`, `Sequence.declaredLength_extend_le`: the length of a sequence
  that was added to.
* `Sequence.ticks_finish_le`: no entry ends after the total, in ticks.
-/

namespace PulseSequencer

namespace Timing

variable {timing : Timing}

/-- The ticks that cover a time are counted if there is a resolution and the time has room. -/
lemma ceilTicks_eq_ok {nanos n : Nat} :
    timing.ceilTicks nanos = .ok n ↔
      timing.resolution ≠ 0 ∧ nanos + timing.resolution < span ∧ timing.cover nanos = n := by
  unfold ceilTicks
  split
  case isTrue h => simp [h]
  case isFalse h =>
    split
    case isTrue hspan => simp [Nat.not_lt_of_le hspan]
    case isFalse hspan => simp [h, Nat.lt_of_not_le hspan]

/-- What ends by a time ends by the ticks that cover it. -/
lemma ticks_le_cover (hres : timing.resolution ≠ 0) {a b : Nat} (h : a ≤ b) :
    timing.ticks a ≤ timing.cover b := by
  apply Nat.div_le_div_right
  omega

end Timing

namespace Event

/-- An entry does not end before it begins. -/
lemma start_le_finish (e : Event) : e.start ≤ e.finish := by
  cases e with
  | ttl p => exact Nat.le_add_right p.start p.length
  | dds e => exact Nat.le_add_right e.start e.length

end Event

namespace Sequence

variable {s : Sequence}

/-- The TTL pulses of a sequence are its entries of this kind. -/
lemma mem_ttlPulses {p : TtlPulse} : p ∈ s.ttlPulses ↔ .ttl p ∈ s.events := by
  rw [ttlPulses, List.mem_filterMap]
  constructor
  · rintro ⟨e, he, hp⟩
    cases e <;> cases hp
    exact he
  · exact fun hp => ⟨.ttl p, hp, rfl⟩

/-- The DDS events of a sequence are its entries of this kind. -/
lemma mem_ddsEvents {e : DdsEvent} : e ∈ s.ddsEvents ↔ .dds e ∈ s.events := by
  rw [ddsEvents, List.mem_filterMap]
  constructor
  · rintro ⟨e', he', he⟩
    cases e' <;> cases he
    exact he'
  · exact fun he => ⟨.dds e, he, rfl⟩

/-- The end of a sequence is the least time that no entry ends after. -/
lemma finish_le_iff {n : Nat} : s.finish ≤ n ↔ ∀ e ∈ s.events, e.finish ≤ n := by
  obtain ⟨events, extended⟩ := s
  induction events with
  | nil => simp [finish]
  | cons e rest ih =>
    have hcons : finish ⟨e :: rest, extended⟩ = max e.finish (finish ⟨rest, extended⟩) := rfl
    rw [hcons, max_le_iff, ih, List.forall_mem_cons]

/-- A sequence lasts until each of its entries has ended. -/
lemma finish_le_declaredLength {e : Event} (he : e ∈ s.events) : e.finish ≤ s.declaredLength :=
  Nat.le_trans (finish_le_iff.mp (Nat.le_refl _) e he) (Nat.le_max_right _ _)

/-- With more entries a sequence lasts until they have ended too. -/
lemma declaredLength_append_le {events : List Event} {n : Nat} :
    (s.append events).declaredLength ≤ n ↔
      s.declaredLength ≤ n ∧ ∀ e ∈ events, e.finish ≤ n := by
  have hextended : (s.append events).extended = s.extended := rfl
  have hevents : (s.append events).events = s.events ++ events := rfl
  simp only [declaredLength, hextended, Nat.max_le, finish_le_iff, hevents, List.forall_mem_append,
    and_assoc]

/-- An extended sequence lasts as long as it is asked to. -/
lemma declaredLength_extend_le {length n : Nat} :
    (s.extend length).declaredLength ≤ n ↔ s.declaredLength ≤ n ∧ length ≤ n := by
  have hextended : (s.extend length).extended = max s.extended length := rfl
  have hevents : (s.extend length).events = s.events := rfl
  simp only [declaredLength, hextended, Nat.max_le, finish_le_iff, hevents]
  exact and_right_comm

/-- No entry ends after the total, in ticks. -/
lemma ticks_finish_le {timing : Timing} {total : Nat} (h : s.totalTicks timing = .ok total)
    {e : Event} (he : e ∈ s.events) : timing.ticks e.finish ≤ total := by
  obtain ⟨hres, -, rfl⟩ := Timing.ceilTicks_eq_ok.mp h
  exact Timing.ticks_le_cover hres (finish_le_declaredLength he)

end Sequence

end PulseSequencer
