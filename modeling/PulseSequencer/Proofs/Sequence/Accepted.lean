import PulseSequencer.Sequence.Builder
import PulseSequencer.Proofs.Result

/-!
# What a builder accepts

A run of a builder is a list of requests, each of which is carried out or refused. These lemmas say
what an accepted request has passed, and that the DDS events of a sequence stay apart from each
other whatever is requested.

* `Builder.Request`, `Builder.step`, `Builder.run`: requests as data, and runs of them.
* `Timing.Fits`: the intervals that a builder takes; `Builder.checkWindow_eq_ok`.
* `Builder.Accepted`: what an accepted DDS request has passed; `Builder.ddsEvent_eq_ok`.
* `Timing.Separate`: DDS events that fit and do not overlap.
* `Builder.run_separate`: the DDS events of every sequence that a builder comes to hold are
  separate.
-/

namespace PulseSequencer

/-- Whether a builder takes an interval: it ends within the longest sequence and lasts a tick. -/
def Timing.Fits (timing : Timing) (start length : Nat) : Prop :=
  start + length ≤ timing.maxLength ∧ timing.resolution ≤ length

/-- DDS events that fit, no two of which share a channel and a time. -/
structure Timing.Separate (timing : Timing) (events : List DdsEvent) : Prop where
  fits : ∀ e ∈ events, timing.Fits e.start e.length
  apart : events.Pairwise fun a b => a.overlaps b = false

namespace Builder

/-- A request to a builder. -/
inductive Request where
  | newSequence
  | ttl (r : TtlRequest)
  | ttls (rs : List TtlRequest)
  | dds (r : DdsRequest)
  | ddss (rs : List DdsRequest)
  | extend (length : Nat)

/-- Carries out a request. -/
def perform (b : Builder) : Request → Except Error Builder
  | .newSequence => .ok b.newSequence
  | .ttl r => b.addTtl r
  | .ttls rs => b.addTtls rs
  | .dds r => b.addDds r
  | .ddss rs => b.addDdss rs
  | .extend length => b.extend length

/-- The builder after a request; a refused one leaves it as it was. -/
def step (b : Builder) (q : Request) : Builder :=
  match b.perform q with
  | .ok b' => b'
  | .error _ => b

/-- The builder after a run of requests. -/
def run (b : Builder) (requests : List Request) : Builder := requests.foldl step b

/-- A request that is accepted leaves what it leads to. -/
lemma step_of_ok {b b' : Builder} {q : Request} (h : b.perform q = .ok b') : b.step q = b' := by
  rw [step, h]

/-- A request that is accepted on a new sequence makes a run with it. -/
lemma run_newSequence_of_ok {b b' : Builder} {q : Request}
    (h : b.newSequence.perform q = .ok b') : b.run [.newSequence, q] = b' :=
  step_of_ok h

/-- A request that is refused leaves the builder as it was. -/
lemma step_of_error {b : Builder} {q : Request} {e : Error} (h : b.perform q = .error e) :
    b.step q = b := by
  rw [step, h]

/-! ## Accepted requests -/

/-- A window is accepted exactly if it fits. -/
lemma checkWindow_eq_ok {b : Builder} {start length : Nat} {u : Unit} :
    b.checkWindow start length = .ok u ↔ b.timing.Fits start length := by
  unfold checkWindow Timing.Fits
  split
  case isTrue h => split <;> simp <;> omega
  case isFalse h => simp; omega

/-- A builder has a current sequence exactly if it was given one. -/
lemma current_eq_ok {b : Builder} {s : Sequence} : b.current = .ok s ↔ b.sequence = some s := by
  unfold current
  cases b.sequence <;> simp

/-- What a DDS request has passed when the event `e` was made of it, with the events `pending` of
the same batch before it. -/
structure Accepted (b : Builder) (pending : List DdsEvent) (r : DdsRequest) (e : DdsEvent) :
    Prop where
  known : ∃ d, b.registry.ddsNamed r.channel = .ok d ∧ d.checkFrequency r.frequency = .ok () ∧
    d.checkAmplitude r.amplitude = .ok () ∧ checkProfile d.name r.profile = .ok () ∧
    checkPhase d.name r.phase = .ok () ∧
    e = ⟨d.index, r.start, r.length, r.frequency, r.amplitude, r.phase, r.profile⟩
  fits : b.timing.Fits r.start r.length
  apart : ∃ s, b.sequence = some s ∧ ∀ a ∈ s.ddsEvents ++ pending, a.overlaps e = false

/-- An event is made of a request exactly if the request passes every check. -/
lemma ddsEvent_eq_ok {b : Builder} {pending : List DdsEvent} {r : DdsRequest} {e : DdsEvent} :
    b.ddsEvent pending r = .ok e ↔ b.Accepted pending r e := by
  unfold ddsEvent
  constructor
  · intro h
    obtain ⟨d, hd, h⟩ := Result.bind_eq_ok.mp h
    obtain ⟨_, hwindow, h⟩ := Result.bind_eq_ok.mp h
    obtain ⟨_, hfrequency, h⟩ := Result.bind_eq_ok.mp h
    obtain ⟨_, hamplitude, h⟩ := Result.bind_eq_ok.mp h
    obtain ⟨_, hprofile, h⟩ := Result.bind_eq_ok.mp h
    obtain ⟨_, hphase, h⟩ := Result.bind_eq_ok.mp h
    obtain ⟨s, hs, h⟩ := Result.bind_eq_ok.mp h
    obtain ⟨hclear, h⟩ := Result.unless_eq_ok.mp h
    cases h
    refine ⟨⟨d, hd, hfrequency, hamplitude, hprofile, hphase, rfl⟩, checkWindow_eq_ok.mp hwindow,
      s, current_eq_ok.mp hs, fun a ha => ?_⟩
    exact Bool.eq_false_iff.mpr (List.any_eq_false.mp (Bool.eq_false_iff.mpr hclear) a ha)
  · rintro ⟨⟨d, hd, hfrequency, hamplitude, hprofile, hphase, rfl⟩, hfits, s, hs, hclear⟩
    refine Result.bind_eq_ok.mpr ⟨d, hd, ?_⟩
    refine Result.bind_eq_ok.mpr ⟨(), checkWindow_eq_ok.mpr hfits, ?_⟩
    refine Result.bind_eq_ok.mpr ⟨(), hfrequency, ?_⟩
    refine Result.bind_eq_ok.mpr ⟨(), hamplitude, ?_⟩
    refine Result.bind_eq_ok.mpr ⟨(), hprofile, ?_⟩
    refine Result.bind_eq_ok.mpr ⟨(), hphase, ?_⟩
    refine Result.bind_eq_ok.mpr ⟨s, current_eq_ok.mpr hs, ?_⟩
    refine Result.unless_eq_ok.mpr ⟨Bool.eq_false_iff.mp (List.any_eq_false.mpr ?_), rfl⟩
    exact fun a ha => Bool.eq_false_iff.mp (hclear a ha)

/-- An entry of a batch is accepted if it is on its own. -/
lemma atEntry_eq_ok {α : Type} {index : Nat} {r : Except Error α} {a : α} :
    atEntry index r = .ok a ↔ r = .ok a := by
  cases r <;> simp [atEntry]

/-- A TTL request is accepted if there is a sequence to add its pulse to. -/
lemma addTtl_eq_ok {b b' : Builder} {r : TtlRequest} :
    b.addTtl r = .ok b' ↔
      (∃ s, b.sequence = some s) ∧ ∃ p, b.ttlPulse r = .ok p ∧ b.push [.ttl p] = b' := by
  simp only [addTtl, Result.bind_eq_ok, current_eq_ok, exists_and_right, pure, Except.pure,
    Except.ok.injEq]

/-- A batch of TTL requests is accepted if there is a sequence to add its pulses to. -/
lemma addTtls_eq_ok {b b' : Builder} {rs : List TtlRequest} :
    b.addTtls rs = .ok b' ↔
      (∃ s, b.sequence = some s) ∧ ∃ ps, b.ttlPulses 0 rs = .ok ps ∧ b.push (ps.map .ttl) = b' := by
  simp only [addTtls, Result.bind_eq_ok, current_eq_ok, exists_and_right, pure, Except.pure,
    Except.ok.injEq]

/-- A DDS request is accepted if there is a sequence to add its event to. -/
lemma addDds_eq_ok {b b' : Builder} {r : DdsRequest} :
    b.addDds r = .ok b' ↔
      (∃ s, b.sequence = some s) ∧ ∃ e, b.ddsEvent [] r = .ok e ∧ b.push [.dds e] = b' := by
  simp only [addDds, Result.bind_eq_ok, current_eq_ok, exists_and_right, pure, Except.pure,
    Except.ok.injEq]

/-- A batch of DDS requests is accepted if there is a sequence to add its events to. -/
lemma addDdss_eq_ok {b b' : Builder} {rs : List DdsRequest} :
    b.addDdss rs = .ok b' ↔
      (∃ s, b.sequence = some s) ∧ ∃ es, b.ddsEvents 0 [] rs = .ok es ∧
        b.push (es.map .dds) = b' := by
  simp only [addDdss, Result.bind_eq_ok, current_eq_ok, exists_and_right, pure, Except.pure,
    Except.ok.injEq]

/-- A length is accepted if there is a sequence to extend and it may be that long. -/
lemma extend_eq_ok {b b' : Builder} {length : Nat} :
    b.extend length = .ok b' ↔
      (∃ s, b.sequence = some s) ∧ length ≤ b.timing.maxLength ∧
        { b with sequence := b.sequence.map (·.extend length) } = b' := by
  simp only [Builder.extend, Result.bind_eq_ok, Result.unless_eq_ok, current_eq_ok,
    exists_and_right, pure, Except.pure, Except.ok.injEq, Nat.not_lt]

/-! ## DDS events stay apart -/

/-- Adding an accepted event keeps the events separate. -/
lemma Accepted.separate {b : Builder} {s : Sequence} {pending : List DdsEvent} {r : DdsRequest}
    {e : DdsEvent} (h : b.Accepted pending r e) (hs : b.sequence = some s)
    (sep : b.timing.Separate (s.ddsEvents ++ pending)) :
    b.timing.Separate (s.ddsEvents ++ (pending ++ [e])) := by
  obtain ⟨⟨d, _, _, _, _, _, he⟩, hfits, s', hs', hclear⟩ := h
  cases hs.symm.trans hs'
  rw [← List.append_assoc]
  constructor
  · intro a ha
    rcases List.mem_append.mp ha with ha | ha
    · exact sep.fits a ha
    · cases List.mem_singleton.mp ha
      rw [he]
      exact hfits
  · rw [List.pairwise_append]
    refine ⟨sep.apart, List.pairwise_singleton _ _, fun a ha a' ha' => ?_⟩
    cases List.mem_singleton.mp ha'
    exact hclear a ha

/-- Adding the accepted events of a batch keeps the events separate. -/
lemma ddsEvents_separate {b : Builder} {s : Sequence} (hs : b.sequence = some s)
    {rs : List DdsRequest} {index : Nat} {pending es : List DdsEvent}
    (h : b.ddsEvents index pending rs = .ok es)
    (sep : b.timing.Separate (s.ddsEvents ++ pending)) :
    b.timing.Separate (s.ddsEvents ++ es) := by
  induction rs generalizing index pending with
  | nil =>
    cases h
    exact sep
  | cons r rest ih =>
    obtain ⟨e, he, h⟩ := Result.bind_eq_ok.mp h
    have accepted : b.Accepted pending r e := ddsEvent_eq_ok.mp (atEntry_eq_ok.mp he)
    exact ih h (accepted.separate hs sep)

/-- The DDS events of the current sequence, none without one, are separate. -/
def Separate (b : Builder) : Prop := ∀ s, b.sequence = some s → b.timing.Separate s.ddsEvents

/-- What a builder holds after entries were added to its sequence. -/
lemma push_separate {b : Builder} {s : Sequence} (hs : b.sequence = some s) {events : List Event}
    (sep : b.timing.Separate (s.ddsEvents ++ events.filterMap Event.dds?)) :
    (b.push events).Separate := by
  intro s' hs'
  simp only [push, hs, Option.map_some, Option.some.injEq] at hs'
  subst hs'
  simpa [push, Sequence.ddsEvents, Sequence.append] using sep

/-- An accepted request keeps the events separate. -/
lemma perform_separate {b b' : Builder} {q : Request} (h : b.perform q = .ok b')
    (sep : b.Separate) : b'.Separate := by
  cases q with
  | newSequence =>
    cases h
    intro s hs
    cases hs
    exact ⟨nofun, .nil⟩
  | ttl r =>
    obtain ⟨⟨s, hs⟩, p, _, rfl⟩ := addTtl_eq_ok.mp h
    exact push_separate hs (by simpa [List.filterMap_cons, Event.dds?] using sep s hs)
  | ttls rs =>
    obtain ⟨⟨s, hs⟩, ps, _, rfl⟩ := addTtls_eq_ok.mp h
    refine push_separate hs ?_
    simpa [List.filterMap_map, Function.comp_def, Event.dds?] using sep s hs
  | dds r =>
    obtain ⟨⟨s, hs⟩, e, he, rfl⟩ := addDds_eq_ok.mp h
    have added := (ddsEvent_eq_ok.mp he).separate hs (by simpa using sep s hs)
    exact push_separate hs (by simpa [Event.dds?] using added)
  | ddss rs =>
    obtain ⟨⟨s, hs⟩, es, hes, rfl⟩ := addDdss_eq_ok.mp h
    have added := ddsEvents_separate hs hes (by simpa using sep s hs)
    refine push_separate hs ?_
    simpa [List.filterMap_map, Function.comp_def, Event.dds?] using added
  | extend length =>
    obtain ⟨⟨s, hs⟩, _, rfl⟩ := extend_eq_ok.mp h
    intro s' hs'
    simp only [hs, Option.map_some, Option.some.injEq] at hs'
    subst hs'
    exact sep s hs

/-- Only a new sequence can be had without one. -/
lemma exists_sequence_of_perform {b b' : Builder} {q : Request} (hq : q ≠ .newSequence)
    (h : b.perform q = .ok b') : ∃ s, b.sequence = some s := by
  cases q with
  | newSequence => exact absurd rfl hq
  | ttl r => exact (addTtl_eq_ok.mp h).1
  | ttls rs => exact (addTtls_eq_ok.mp h).1
  | dds r => exact (addDds_eq_ok.mp h).1
  | ddss rs => exact (addDdss_eq_ok.mp h).1
  | extend length => exact (extend_eq_ok.mp h).1

/-- A request never changes the timing of a builder. -/
lemma perform_timing {b b' : Builder} {q : Request} (h : b.perform q = .ok b') :
    b'.timing = b.timing := by
  cases q with
  | newSequence => cases h; rfl
  | ttl r => obtain ⟨_, _, _, rfl⟩ := addTtl_eq_ok.mp h; rfl
  | ttls rs => obtain ⟨_, _, _, rfl⟩ := addTtls_eq_ok.mp h; rfl
  | dds r => obtain ⟨_, _, _, rfl⟩ := addDds_eq_ok.mp h; rfl
  | ddss rs => obtain ⟨_, _, _, rfl⟩ := addDdss_eq_ok.mp h; rfl
  | extend length => obtain ⟨_, _, rfl⟩ := extend_eq_ok.mp h; rfl

/-- A request never changes the registry of a builder. -/
lemma perform_registry {b b' : Builder} {q : Request} (h : b.perform q = .ok b') :
    b'.registry = b.registry := by
  cases q with
  | newSequence => cases h; rfl
  | ttl r => obtain ⟨_, _, _, rfl⟩ := addTtl_eq_ok.mp h; rfl
  | ttls rs => obtain ⟨_, _, _, rfl⟩ := addTtls_eq_ok.mp h; rfl
  | dds r => obtain ⟨_, _, _, rfl⟩ := addDds_eq_ok.mp h; rfl
  | ddss rs => obtain ⟨_, _, _, rfl⟩ := addDdss_eq_ok.mp h; rfl
  | extend length => obtain ⟨_, _, rfl⟩ := extend_eq_ok.mp h; rfl

/-- What every accepted request keeps, a run keeps. -/
lemma run_invariant {I : Builder → Prop}
    (keep : ∀ {b b' q}, perform b q = .ok b' → I b → I b') {b : Builder} (h : I b)
    (requests : List Request) : I (b.run requests) := by
  induction requests generalizing b with
  | nil => exact h
  | cons q rest ih =>
    refine ih (b := b.step q) ?_
    cases hq : b.perform q with
    | ok b' => exact step_of_ok hq ▸ keep hq h
    | error e => exact (step_of_error hq).symm ▸ h

/-- A run of a builder is about one registry and one timing. -/
lemma run_setup (b : Builder) (requests : List Request) :
    (b.run requests).registry = b.registry ∧ (b.run requests).timing = b.timing := by
  refine run_invariant (I := fun b' => b'.registry = b.registry ∧ b'.timing = b.timing)
    (fun h hb => ⟨?_, ?_⟩) ⟨rfl, rfl⟩ requests
  · exact (perform_registry h).trans hb.1
  · exact (perform_timing h).trans hb.2

/-- The DDS events of every sequence that a builder comes to hold are separate. -/
lemma run_separate (registry : Registry) (timing : Timing) (requests : List Request) {s : Sequence}
    (hs : ((new registry timing).run requests).sequence = some s) :
    timing.Separate s.ddsEvents := by
  have keep : ∀ {b b' : Builder} {q}, b.perform q = .ok b' → b.timing = timing ∧ b.Separate →
      b'.timing = timing ∧ b'.Separate :=
    fun h hb => ⟨(perform_timing h).trans hb.1, perform_separate h hb.2⟩
  have start : (new registry timing).timing = timing ∧ (new registry timing).Separate :=
    ⟨rfl, nofun⟩
  obtain ⟨htiming, hsep⟩ := run_invariant keep start requests
  exact htiming ▸ hsep s hs

end Builder

end PulseSequencer
