import PulseSequencer.Sequence.Transition
import PulseSequencer.Proofs.Sequence.Accepted

/-!
# The state of a DDS channel

The last change of a DDS channel up to a tick tells its state in that tick. It is the rise of the
event that covers the tick, and the fall of an earlier event if none does. This holds although a
fall is left out when the next event begins in the very tick, and although several changes of one
channel may share a tick when its resolution is coarse.

* `DdsEvent.Covers`: an event covers a tick, its two ends rounded down.
* `Transition.last`: the last change up to a tick, and `Transition.last_walk_of_covers`, what it is
  for events of one channel that follow each other.
* `Transition.filter_walk`: the changes of a channel are those of its own events.
* `Transition.filter_mergeSort`: sorting keeps the order of changes that are in order.
* `Sequence.latest_transitions_of_covers`, `Sequence.latest_transitions_of_not_covers`: the last
  change of a channel up to a tick.
-/

namespace PulseSequencer

/-- Whether an event covers a tick, its two ends rounded down. -/
def DdsEvent.Covers (timing : Timing) (e : DdsEvent) (tick : Nat) : Prop :=
  timing.ticks e.start ≤ tick ∧ tick < timing.ticks e.finish

instance DdsEvent.decidableCovers (timing : Timing) (e : DdsEvent) (tick : Nat) :
    Decidable (e.Covers timing tick) :=
  inferInstanceAs (Decidable (_ ∧ _))

/-- An event ends before another one begins. -/
def DdsEvent.Before (a b : DdsEvent) : Prop := a.finish ≤ b.start

namespace Transition

variable {timing : Timing}

/-! ## The changes of one channel -/

/-- The last change up to a tick. -/
def last (t : Nat) (xs : List Transition) : Option Transition :=
  (xs.filter fun x => x.tick ≤ t).getLast?

/-- The last change of two lists is that of the second one, if it has one. -/
lemma last_append (t : Nat) (xs ys : List Transition) :
    last t (xs ++ ys) = (last t ys).or (last t xs) := by
  simp only [last, List.filter_append, List.getLast?_append]

/-- There is no last change if all come later. -/
lemma last_eq_none {t : Nat} {xs : List Transition} : last t xs = none ↔ ∀ x ∈ xs, t < x.tick := by
  simp [last]

/-- An event does not end before it begins, in ticks. -/
lemma ticks_start_le (timing : Timing) (e : DdsEvent) :
    timing.ticks e.start ≤ timing.ticks e.finish :=
  timing.ticks_mono (Nat.le_add_right _ _)

/-- The changes that an event makes when `next` is the event after it. -/
def changes (timing : Timing) (e : DdsEvent) (next : Option DdsEvent) : List Transition :=
  if handsOver timing e next then [rise timing e] else [rise timing e, fall timing e]

/-- The changes of events are those of the first one and those of the others. -/
lemma walk_cons (e : DdsEvent) (rest : List DdsEvent) :
    walk timing (e :: rest) = changes timing e rest.head? ++ walk timing rest := by
  rw [walk, changes]
  split <;> rfl

/-- The rise of an event is one of its changes. -/
lemma rise_mem_changes (e : DdsEvent) (next : Option DdsEvent) :
    rise timing e ∈ changes timing e next := by
  unfold changes
  split <;> exact List.mem_cons_self

/-- A change of an event is its rise or its fall. -/
lemma mem_changes {e : DdsEvent} {next : Option DdsEvent} {x : Transition}
    (h : x ∈ changes timing e next) : x = rise timing e ∨ x = fall timing e := by
  unfold changes at h
  split at h
  · exact .inl (List.mem_singleton.mp h)
  · simpa using h

/-- The changes of an event come no earlier than it begins. -/
lemma start_le_of_mem_changes {e : DdsEvent} {next : Option DdsEvent} {x : Transition}
    (h : x ∈ changes timing e next) : timing.ticks e.start ≤ x.tick := by
  rcases mem_changes h with rfl | rfl
  · exact Nat.le_refl _
  · exact ticks_start_le timing e

/-- The last change of an event that has begun: its fall if it is over and made one. -/
lemma last_changes {e : DdsEvent} {t : Nat} (h : timing.ticks e.start ≤ t)
    (next : Option DdsEvent) :
    last t (changes timing e next) =
      if timing.ticks e.finish ≤ t ∧ handsOver timing e next = false then some (fall timing e)
      else some (rise timing e) := by
  unfold changes
  by_cases hover : handsOver timing e next = true
  · simp [hover, last, rise, h]
  · by_cases hend : timing.ticks e.finish ≤ t <;> simp [hover, last, rise, fall, h, hend]

/-- An event makes at most two changes. -/
lemma length_walk_le (timing : Timing) (es : List DdsEvent) :
    (walk timing es).length ≤ 2 * es.length := by
  induction es with
  | nil => exact Nat.le_refl 0
  | cons e rest ih =>
    have own : (changes timing e rest.head?).length ≤ 2 := by
      unfold changes
      split <;> simp
    rw [walk_cons, List.length_append, List.length_cons]
    omega

/-- Changes come no earlier than a time before which no event begins. -/
lemma le_tick_of_mem_walk {es : List DdsEvent} {time : Nat} (h : ∀ e ∈ es, time ≤ e.start)
    {x : Transition} (hx : x ∈ walk timing es) : timing.ticks time ≤ x.tick := by
  induction es with
  | nil => cases hx
  | cons e rest ih =>
    rw [walk_cons, List.mem_append] at hx
    rcases hx with hx | hx
    · have hstart := timing.ticks_mono (h e List.mem_cons_self)
      exact Nat.le_trans hstart (start_le_of_mem_changes hx)
    · exact ih (fun e' he' => h e' (List.mem_cons_of_mem e he')) hx

/-- A change is the rise or the fall of one of the events. -/
lemma mem_walk {es : List DdsEvent} {x : Transition} (hx : x ∈ walk timing es) :
    ∃ e ∈ es, x = rise timing e ∨ x = fall timing e := by
  induction es with
  | nil => cases hx
  | cons e rest ih =>
    rw [walk_cons, List.mem_append] at hx
    rcases hx with hx | hx
    · exact ⟨e, List.mem_cons_self, mem_changes hx⟩
    · obtain ⟨e', he', hx⟩ := ih hx
      exact ⟨e', List.mem_cons_of_mem e he', hx⟩

/-- The changes of events that follow each other are in the order of ticks. -/
lemma walk_sorted {es : List DdsEvent} (order : es.Pairwise DdsEvent.Before) :
    (walk timing es).Pairwise fun x y => x.tick ≤ y.tick := by
  induction es with
  | nil => exact .nil
  | cons e rest ih =>
    obtain ⟨hbefore, hrest⟩ := List.pairwise_cons.mp order
    rw [walk_cons, List.pairwise_append]
    refine ⟨?_, ih hrest, fun x hx y hy => ?_⟩
    · unfold changes
      split
      · exact List.pairwise_singleton _ _
      · exact List.pairwise_pair.mpr (ticks_start_le timing e)
    · have later := le_tick_of_mem_walk hbefore hy
      rcases mem_changes hx with rfl | rfl
      · exact Nat.le_trans (ticks_start_le timing e) later
      · exact later

/-- In a tick that an event covers, the last change is its rise. -/
lemma last_walk_of_covers {es : List DdsEvent} (order : es.Pairwise DdsEvent.Before) {t : Nat}
    {e : DdsEvent} (he : e ∈ es) (covers : e.Covers timing t) :
    last t (walk timing es) = some (rise timing e) := by
  induction es with
  | nil => cases he
  | cons e' rest ih =>
    obtain ⟨hbefore, hrest⟩ := List.pairwise_cons.mp order
    rw [walk_cons, last_append]
    cases he with
    | head =>
      have none_later : last t (walk timing rest) = none :=
        last_eq_none.mpr fun x hx => Nat.lt_of_lt_of_le covers.2 (le_tick_of_mem_walk hbefore hx)
      have hend : ¬timing.ticks e.finish ≤ t := Nat.not_le_of_lt covers.2
      rw [none_later, last_changes covers.1, if_neg fun h => hend h.1]
      rfl
    | tail _ he =>
      rw [ih hrest he]
      rfl

/-- In a tick that no event covers, the last change is a fall, if there is one. -/
lemma last_walk_of_not_covers {es : List DdsEvent} {t : Nat}
    (hnone : ∀ e ∈ es, ¬e.Covers timing t) {x : Transition}
    (hx : last t (walk timing es) = some x) : ∃ e ∈ es, x = fall timing e := by
  induction es with
  | nil => cases hx
  | cons e rest ih =>
    rw [walk_cons, last_append] at hx
    cases hlater : last t (walk timing rest) with
    | some y =>
      rw [hlater] at hx
      cases hx
      obtain ⟨e', he', rfl⟩ := ih (fun e' he' => hnone e' (List.mem_cons_of_mem e he')) hlater
      exact ⟨e', List.mem_cons_of_mem e he', rfl⟩
    | none =>
      rw [hlater, Option.none_or] at hx
      have hstart : timing.ticks e.start ≤ t := by
        by_contra hbegins
        have none_own : last t (changes timing e rest.head?) = none :=
          last_eq_none.mpr fun y hy =>
            Nat.lt_of_lt_of_le (Nat.lt_of_not_le hbegins) (start_le_of_mem_changes hy)
        rw [none_own] at hx
        cases hx
      have hend : timing.ticks e.finish ≤ t :=
        Nat.le_of_not_lt fun h => hnone e List.mem_cons_self ⟨hstart, h⟩
      -- the next event does not begin where `e` ends: its rise would be a later change
      have hover : handsOver timing e rest.head? = false := by
        cases rest with
        | nil => rfl
        | cons next rest' =>
          have hrise : rise timing next ∈ walk timing (next :: rest') := by
            rw [walk_cons]
            exact List.mem_append_left _ (rise_mem_changes next _)
          have hafter : t < timing.ticks next.start := last_eq_none.mp hlater _ hrise
          have hne : timing.ticks next.start ≠ timing.ticks e.finish := by omega
          simp [handsOver, hne]
      rw [last_changes hstart, if_pos ⟨hend, hover⟩] at hx
      cases hx
      exact ⟨e, List.mem_cons_self, rfl⟩

/-! ## The order of events and changes -/

/-- Events are sorted by channel and then by start. -/
lemma eventLe_iff {a b : DdsEvent} :
    eventLe a b = true ↔
      a.channel.toNat < b.channel.toNat ∨ a.channel = b.channel ∧ a.start ≤ b.start := by
  simp [eventLe, UInt8.lt_iff_toNat_lt]

/-- Changes are sorted by tick and then by channel. -/
lemma le_iff {a b : Transition} :
    le a b = true ↔ a.tick < b.tick ∨ a.tick = b.tick ∧ a.channel.toNat ≤ b.channel.toNat := by
  simp [le, UInt8.le_iff_toNat_le]

/-- The order of events is transitive. -/
lemma eventLe_trans (a b c : DdsEvent) (hab : eventLe a b = true) (hbc : eventLe b c = true) :
    eventLe a c = true := by
  rw [eventLe_iff, ← UInt8.toNat_inj] at *
  omega

/-- The order of events is total. -/
lemma eventLe_total (a b : DdsEvent) : (eventLe a b || eventLe b a) = true := by
  rw [Bool.or_eq_true, eventLe_iff, eventLe_iff, ← UInt8.toNat_inj, ← UInt8.toNat_inj]
  omega

/-- The order of changes is transitive. -/
lemma le_trans (a b c : Transition) (hab : le a b = true) (hbc : le b c = true) :
    le a c = true := by
  rw [le_iff] at *
  omega

/-- The order of changes is total. -/
lemma le_total (a b : Transition) : (le a b || le b a) = true := by
  rw [Bool.or_eq_true, le_iff, le_iff]
  omega

/-- Sorting keeps the changes that a test selects in their order, if they are in order. -/
lemma filter_mergeSort {xs : List Transition} (p : Transition → Bool)
    (h : (xs.filter p).Pairwise fun a b => le a b = true) :
    (xs.mergeSort le).filter p = xs.filter p := by
  have sub : (xs.filter p).Sublist (xs.mergeSort le) :=
    List.sublist_mergeSort le_trans le_total h List.filter_sublist
  have selected : ((xs.filter p).filter p).Sublist ((xs.mergeSort le).filter p) := sub.filter p
  simp only [List.filter_filter, Bool.and_self] at selected
  have length_eq := ((List.mergeSort_perm xs le).filter p).length_eq
  exact (selected.eq_of_length length_eq.symm).symm

/-- Of events in the order of channels, those of a channel make the changes of that channel. -/
lemma filter_walk {es : List DdsEvent} (sorted : es.Pairwise fun a b => eventLe a b = true)
    (c : UInt8) :
    (walk timing es).filter (·.channel == c) = walk timing (es.filter (·.channel == c)) := by
  induction es with
  | nil => rfl
  | cons e rest ih =>
    obtain ⟨hfirst, hrest⟩ := List.pairwise_cons.mp sorted
    rw [walk_cons, List.filter_append, ih hrest]
    by_cases hc : e.channel = c
    · have keeps : (changes timing e rest.head?).filter (·.channel == c) =
          changes timing e rest.head? := by
        apply List.filter_eq_self.mpr
        intro x hx
        rcases mem_changes hx with rfl | rfl <;> simp [rise, fall, hc]
      -- an event of another channel takes over nothing, and none of this channel comes after it
      have next_eq : handsOver timing e rest.head? =
          handsOver timing e (rest.filter (·.channel == c)).head? := by
        cases rest with
        | nil => rfl
        | cons next rest' =>
          by_cases hnext : next.channel = c
          · simp [hnext]
          · have hgreater : ∀ e' ∈ next :: rest', e'.channel ≠ c := by
              intro e' he' heq
              have h1 := eventLe_iff.mp (hfirst next List.mem_cons_self)
              have hnot : next.channel.toNat ≠ c.toNat := fun h => hnext (UInt8.toNat_inj.mp h)
              cases he' with
              | head => exact hnext heq
              | tail _ he' =>
                have h2 := eventLe_iff.mp ((List.pairwise_cons.mp hrest).1 e' he')
                rw [← UInt8.toNat_inj] at h1 h2
                rw [hc] at h1
                rw [heq] at h2
                omega
            have none_left : (next :: rest').filter (·.channel == c) = [] :=
              List.filter_eq_nil_iff.mpr fun e' he' => by simpa using hgreater e' he'
            have hne : next.channel ≠ e.channel := fun h => hnext (h.trans hc)
            rw [none_left]
            simp [handsOver, hne]
      rw [keeps, List.filter_cons_of_pos (by simpa using hc), walk_cons, changes, changes, next_eq]
    · have drops : (changes timing e rest.head?).filter (·.channel == c) = [] := by
        apply List.filter_eq_nil_iff.mpr
        intro x hx
        rcases mem_changes hx with rfl | rfl <;> simp [rise, fall, hc]
      rw [drops, List.filter_cons_of_neg (by simpa using hc)]
      rfl

end Transition

/-! ## The changes of a sequence -/

namespace DdsEvent

/-- Two events do not overlap if they are on different channels or one is over before the other. -/
lemma overlaps_eq_false {a b : DdsEvent} :
    a.overlaps b = false ↔ a.channel = b.channel → b.finish ≤ a.start ∨ a.finish ≤ b.start := by
  simp only [overlaps, Bool.and_eq_false_iff, beq_eq_false_iff_ne, decide_eq_false_iff_not]
  by_cases h : a.channel = b.channel <;> simp [h, or_iff_not_imp_left]

/-- Overlapping goes both ways. -/
lemma overlaps_comm {a b : DdsEvent} (h : a.overlaps b = false) : b.overlaps a = false := by
  rw [overlaps_eq_false] at h ⊢
  intro hc
  exact (h hc.symm).symm

end DdsEvent

section
variable {timing timing' : Timing} {s : Sequence} {c : UInt8} {t : Nat}

/-- Separate events of a channel follow each other once they are sorted. -/
lemma Timing.Separate.before {events : List DdsEvent} (sep : timing.Separate events)
    (hres : timing.resolution ≠ 0) (c : UInt8) :
    ((events.mergeSort Transition.eventLe).filter (·.channel == c)).Pairwise DdsEvent.Before := by
  have perm := List.mergeSort_perm events Transition.eventLe
  have sorted : (events.mergeSort Transition.eventLe).Pairwise
      fun a b => Transition.eventLe a b = true :=
    List.pairwise_mergeSort Transition.eventLe_trans Transition.eventLe_total _
  have apart : (events.mergeSort Transition.eventLe).Pairwise fun a b => a.overlaps b = false :=
    (perm.pairwise_iff fun h => DdsEvent.overlaps_comm h).mpr sep.apart
  refine ((sorted.and apart).filter _).imp_of_mem fun {a b} ha hb hab => ?_
  obtain ⟨ha, hac⟩ := List.mem_filter.mp ha
  obtain ⟨hb, hbc⟩ := List.mem_filter.mp hb
  have same : a.channel = b.channel := (beq_iff_eq.mp hac).trans (beq_iff_eq.mp hbc).symm
  have hstart : a.start ≤ b.start := by
    have := Transition.eventLe_iff.mp hab.1
    rw [same] at this
    omega
  have hlength := (sep.fits b (perm.mem_iff.mp hb)).2
  rcases DdsEvent.overlaps_eq_false.mp hab.2 same with h | h
  · -- `b` would have to end before `a` begins, but lasts at least a tick
    unfold DdsEvent.finish at h
    omega
  · exact h

/-- The changes of a channel, in the order of time, are those of its own events. -/
lemma Sequence.filter_transitions (sep : timing.Separate s.ddsEvents)
    (hres : timing.resolution ≠ 0) (timing' : Timing) (c : UInt8) :
    (s.transitions timing').filter (·.channel == c) =
      Transition.walk timing'
        ((s.ddsEvents.mergeSort Transition.eventLe).filter (·.channel == c)) := by
  have sorted : (s.ddsEvents.mergeSort Transition.eventLe).Pairwise
      fun a b => Transition.eventLe a b = true :=
    List.pairwise_mergeSort Transition.eventLe_trans Transition.eventLe_total _
  have own : (Transition.walk timing' (s.ddsEvents.mergeSort Transition.eventLe)).filter
      (·.channel == c) = _ := Transition.filter_walk sorted c
  rw [Sequence.transitions, Transition.filter_mergeSort, own]
  have walked : (Transition.walk timing'
      ((s.ddsEvents.mergeSort Transition.eventLe).filter (·.channel == c))).Pairwise
        fun x y => x.tick ≤ y.tick := Transition.walk_sorted (sep.before hres c)
  have ticks := own ▸ walked
  refine ticks.imp_of_mem fun {x y} hx hy hle => Transition.le_iff.mpr ?_
  have hxc := (List.mem_filter.mp hx).2
  have hyc := (List.mem_filter.mp hy).2
  rw [beq_iff_eq.mp hxc, beq_iff_eq.mp hyc]
  omega

/-- The last change of a channel up to a tick. -/
def Transition.latest (c : UInt8) (t : Nat) (xs : List Transition) : Option Transition :=
  (xs.filter fun x => x.channel == c && decide (x.tick ≤ t)).getLast?

/-- The last change of a channel is the last one among its changes. -/
lemma Transition.latest_eq (c : UInt8) (t : Nat) (xs : List Transition) :
    latest c t xs = last t (xs.filter (·.channel == c)) := by
  rw [latest, last, List.filter_filter]
  simp only [Bool.and_comm]

/-- In a tick that an event of the channel covers, the last change is its rise. -/
lemma Sequence.latest_transitions_of_covers (sep : timing.Separate s.ddsEvents)
    (hres : timing.resolution ≠ 0) {e : DdsEvent} (he : e ∈ s.ddsEvents)
    (covers : e.Covers timing' t) :
    Transition.latest e.channel t (s.transitions timing') = some (Transition.rise timing' e) := by
  rw [Transition.latest_eq, s.filter_transitions sep hres]
  apply Transition.last_walk_of_covers (sep.before hres e.channel) _ covers
  exact List.mem_filter.mpr ⟨List.mem_mergeSort.mpr he, beq_self_eq_true _⟩

/-- In a tick that no event of the channel covers, the last change is a fall, if there is one. -/
lemma Sequence.latest_transitions_of_not_covers (sep : timing.Separate s.ddsEvents)
    (hres : timing.resolution ≠ 0)
    (hnone : ∀ e ∈ s.ddsEvents, e.channel = c → ¬e.Covers timing' t) {x : Transition}
    (hx : Transition.latest c t (s.transitions timing') = some x) :
    ∃ e ∈ s.ddsEvents, e.channel = c ∧ x = Transition.fall timing' e := by
  rw [Transition.latest_eq, s.filter_transitions sep hres] at hx
  have hnone' : ∀ e ∈ (s.ddsEvents.mergeSort Transition.eventLe).filter (·.channel == c),
      ¬e.Covers timing' t := by
    intro e he
    obtain ⟨he, hc⟩ := List.mem_filter.mp he
    exact hnone e (List.mem_mergeSort.mp he) (beq_iff_eq.mp hc)
  obtain ⟨e, he, rfl⟩ := Transition.last_walk_of_not_covers hnone' hx
  obtain ⟨he, hc⟩ := List.mem_filter.mp he
  exact ⟨e, List.mem_mergeSort.mp he, beq_iff_eq.mp hc, rfl⟩

/-- The changes of a sequence are in the order of ticks and then of channels. -/
lemma Sequence.transitions_sorted (s : Sequence) (timing : Timing) :
    (s.transitions timing).Pairwise fun x y => Transition.le x y = true :=
  List.pairwise_mergeSort Transition.le_trans Transition.le_total _

/-- A sequence has at most two changes for each of its DDS events. -/
lemma Sequence.length_transitions_le (s : Sequence) (timing : Timing) :
    (s.transitions timing).length ≤ 2 * s.ddsEvents.length := by
  rw [Sequence.transitions, List.length_mergeSort, ← List.length_mergeSort s.ddsEvents]
  exact Transition.length_walk_le timing _

end

end PulseSequencer
