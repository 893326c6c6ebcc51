import PulseSequencer.Proofs.Program.Compilable

/-!
# The length of a sequence

A sequence is as long as the requests that were granted since it was begun ask for, and no longer:
its length is the latest end of a pulse or an event, or the greatest length that was asked for. So
it never shrinks, and it does not matter when a length is asked for. In ticks a program is the
shortest one that covers this length.

* `Timing.isLeast_cover`: rounding up gives the least number of ticks.
* `Builder.Request.ends`, `Builder.granted`: what a request asks for, and the requests of a run that
  are granted.
* `Builder.Lengthens`: one builder holds the sequence of another, made to last until some times.
* `Builder.lengthen`, `Builder.Commute`: a request for a length, and requests whose order does not
  matter.
* `Builder.Measured`: what is known of the length; `Builder.run_measured`, that it is so after every
  run, and `Builder.flash_measured`, a case of it.
-/

namespace PulseSequencer

/-- Rounded up, a time is the least number of ticks that covers it. -/
lemma Timing.isLeast_cover {timing : Timing} (hres : timing.resolution ≠ 0) (nanos : Nat) :
    IsLeast {n | nanos ≤ n * timing.resolution} (timing.cover nanos) := by
  have hpos := Nat.pos_of_ne_zero hres
  constructor
  · have hnext := Nat.lt_mul_div_succ (nanos + timing.resolution - 1) hpos
    show nanos ≤ (nanos + timing.resolution - 1) / timing.resolution * timing.resolution
    rw [Nat.mul_comm]
    rw [Nat.mul_succ] at hnext
    omega
  · intro n hn
    have hn : nanos ≤ n * timing.resolution := hn
    refine Nat.le_of_lt_succ ((Nat.div_lt_iff_lt_mul hpos).mpr ?_)
    rw [Nat.succ_mul]
    omega

/-- A whole number of ticks is covered by as many. -/
lemma Timing.cover_mul {timing : Timing} (hres : timing.resolution ≠ 0) (n : Nat) :
    timing.cover (n * timing.resolution) = n := by
  have hleast := Timing.isLeast_cover hres (n * timing.resolution)
  have hholds : n * timing.resolution ≤ timing.cover (n * timing.resolution) * timing.resolution :=
    hleast.1
  exact Nat.le_antisymm (hleast.2 (Nat.le_refl (n * timing.resolution)))
    (Nat.le_of_mul_le_mul_right hholds (Nat.pos_of_ne_zero hres))

namespace Builder

variable {b b' b'' : Builder} {s s' : Sequence} {e : Error} {q : Request}

/-! ## What requests ask for -/

/-- The times until which a sequence has to last for a request. -/
def Request.ends : Request → List Nat
  | .newSequence => []
  | .ttl r => [r.start + r.length]
  | .ttls rs => rs.map fun r => r.start + r.length
  | .dds r => [r.start + r.length]
  | .ddss rs => rs.map fun r => r.start + r.length
  | .extend length => [length]

/-- The entries of a batch ask for the same times as the batch. -/
lemma Request.Batch.ends_eq {entries : List Request} (h : q.Batch entries) :
    entries.flatMap Request.ends = q.ends := by
  cases h <;> simp [Request.ends, List.flatMap_map, ← List.map_eq_flatMap]

/-- The requests of a run that are granted, in order. -/
def granted (b : Builder) : List Request → List Request
  | [] => []
  | q :: rest =>
    match b.perform q with
    | .ok b' => q :: b'.granted rest
    | .error _ => b.granted rest

/-- The builder `b'` holds a sequence that lasts as long as that of `b` and until all of `ends`, and
no longer. -/
def Lengthens (b b' : Builder) (ends : List Nat) : Prop :=
  ∃ s s', b.sequence = some s ∧ b'.sequence = some s' ∧
    ∀ n, s'.declaredLength ≤ n ↔ s.declaredLength ≤ n ∧ ∀ m ∈ ends, m ≤ n

namespace Lengthens

variable {ends ends' : List Nat}

/-- Nothing that is asked for lengthens nothing. -/
lemma refl (hs : b.sequence = some s) : b.Lengthens b [] := ⟨s, s, hs, hs, by simp⟩

/-- A sequence that was lengthened is still there. -/
lemma exists_sequence (h : b.Lengthens b' ends) : ∃ s', b'.sequence = some s' := by
  obtain ⟨_, s', -, hs', -⟩ := h
  exact ⟨s', hs'⟩

/-- To lengthen twice is to lengthen by both. -/
lemma trans (h : b.Lengthens b' ends) (h' : b'.Lengthens b'' ends') :
    b.Lengthens b'' (ends ++ ends') := by
  obtain ⟨s, s₁, hs, hs₁, hends⟩ := h
  obtain ⟨s₁', s', hs₁', hs', hends'⟩ := h'
  cases hs₁.symm.trans hs₁'
  refine ⟨s, s', hs, hs', fun n => ?_⟩
  rw [hends', hends, List.forall_mem_append, and_assoc]

/-- Entries that are added lengthen a sequence until they end. -/
lemma push (hs : b.sequence = some s) {events : List Event}
    (hends : events.map Event.finish = ends) : b.Lengthens (b.push events) ends := by
  refine ⟨s, _, hs, sequence_push hs events, fun n => ?_⟩
  rw [Sequence.declaredLength_append_le, ← hends, List.forall_mem_map]

end Lengthens

/-- A request that is accepted lengthens the sequence as it asks for. -/
lemma lengthens_of_single (hq : q.single = true) (h : b.perform q = .ok b') :
    b.Lengthens b' q.ends := by
  cases q with
  | newSequence | ttls _ | ddss _ => cases hq
  | ttl r =>
    obtain ⟨⟨s, hs⟩, p, hp, rfl⟩ := addTtl_eq_ok.mp h
    obtain ⟨line, -, -, rfl⟩ := ttlPulse_eq_ok.mp hp
    exact .push hs rfl
  | dds r =>
    obtain ⟨⟨s, hs⟩, e, he, rfl⟩ := addDds_eq_ok.mp h
    obtain ⟨⟨d, -, -, -, -, -, rfl⟩, -, -⟩ := ddsEvent_eq_ok.mp he
    exact .push hs rfl
  | extend length =>
    obtain ⟨⟨s, hs⟩, -, rfl⟩ := extend_eq_ok.mp h
    refine ⟨s, s.extend length, hs, by rw [hs]; rfl, fun n => ?_⟩
    rw [Sequence.declaredLength_extend_le, Request.ends, List.forall_mem_singleton]

/-- Requests that are accepted lengthen the sequence as they ask for. -/
lemma lengthens_of_performAll (hs : b.sequence = some s) {requests : List Request}
    (single : ∀ q ∈ requests, q.single = true) (h : b.performAll requests = .ok b') :
    b.Lengthens b' (requests.flatMap Request.ends) := by
  induction requests generalizing b s with
  | nil =>
    cases h
    exact .refl hs
  | cons q rest ih =>
    obtain ⟨hq, hrest⟩ := List.forall_mem_cons.mp single
    rw [performAll_cons] at h
    obtain ⟨b₁, hfirst, h⟩ := Result.bind_eq_ok.mp h
    have first := lengthens_of_single hq hfirst
    obtain ⟨s₁, hs₁⟩ := first.exists_sequence
    exact first.trans (ih hs₁ hrest h)

/-- A request that is granted makes the sequence last as long as it asks for, and no longer. -/
lemma lengthens_of_perform (hq : q ≠ .newSequence) (h : b.perform q = .ok b') :
    b.Lengthens b' q.ends := by
  rcases q.kinds with rfl | hsingle | ⟨-, entries, batch⟩
  · exact absurd rfl hq
  · exact lengthens_of_single hsingle h
  · obtain ⟨s, hs⟩ := exists_sequence_of_perform hq h
    rw [perform_batch hs batch, inTurn_eq_ok] at h
    exact batch.ends_eq ▸ lengthens_of_performAll hs batch.single h

/-- A run lengthens the sequence as the requests that it is granted ask for. -/
lemma lengthens_of_run (hs : b.sequence = some s) {requests : List Request}
    (hnew : ∀ q ∈ requests, q ≠ .newSequence) :
    b.Lengthens (b.run requests) ((b.granted requests).flatMap Request.ends) := by
  induction requests generalizing b s with
  | nil => exact .refl hs
  | cons q rest ih =>
    obtain ⟨hq, hrest⟩ := List.forall_mem_cons.mp hnew
    rw [run, List.foldl_cons, granted, step]
    cases hperform : b.perform q with
    | ok b₁ =>
      have first := lengthens_of_perform hq hperform
      obtain ⟨s₁, hs₁⟩ := first.exists_sequence
      exact first.trans (ih hs₁ hrest)
    | error e => exact ih hs hrest

/-! ## The order of requests -/

/-- The builder with its sequence made at least `length` long. -/
def lengthen (b : Builder) (length : Nat) : Builder :=
  { b with sequence := b.sequence.map (·.extend length) }

section
variable (length : Nat)

/-- A builder that is made longer has its sequence extended. -/
lemma sequence_lengthen (hs : b.sequence = some s) :
    (b.lengthen length).sequence = some (s.extend length) := by
  rw [lengthen, hs]
  rfl

/-- A length and entries may be asked for in either order. -/
lemma lengthen_push (events : List Event) :
    (b.lengthen length).push events = (b.push events).lengthen length := by
  obtain ⟨registry, timing, sequence⟩ := b
  cases sequence <;> rfl

/-- Two lengths may be asked for in either order. -/
lemma lengthen_lengthen (other : Nat) :
    (b.lengthen length).lengthen other = (b.lengthen other).lengthen length := by
  obtain ⟨registry, timing, sequence⟩ := b
  cases sequence with
  | none => rfl
  | some s =>
    show Builder.mk registry timing (some ((s.extend length).extend other)) = _
    rw [Sequence.extend, Sequence.extend, Nat.max_right_comm]
    rfl

/-- A length is granted exactly if it is not beyond the longest sequence. -/
lemma perform_extend (hs : b.sequence = some s) :
    b.perform (.extend length) =
      if b.timing.maxLength < length then .error (.outOfRange (.length length b.timing.maxLength))
      else .ok (b.lengthen length) := by
  rw [perform, Builder.extend, current_eq_ok.mpr hs]
  rfl

/-- A length does not matter to a DDS event. -/
lemma ddsEvent_lengthen (hs : b.sequence = some s) (pending : List DdsEvent) (r : DdsRequest) :
    (b.lengthen length).ddsEvent pending r = b.ddsEvent pending r := by
  unfold ddsEvent
  rw [current_eq_ok.mpr (sequence_lengthen length hs), current_eq_ok.mpr hs]
  rfl

/-- A length does not matter to what a single request does. -/
lemma single_lengthen (hs : b.sequence = some s) (hq : q.single = true) :
    (b.lengthen length).perform q = (·.lengthen length) <$> b.perform q := by
  have hs' := sequence_lengthen length hs
  cases q with
  | newSequence | ttls _ | ddss _ => cases hq
  | ttl r =>
    rw [perform, perform, addTtl_eq hs, addTtl_eq hs']
    show _ <$> b.ttlPulse r = _
    cases b.ttlPulse r with
    | error e => rfl
    | ok p => exact congrArg Except.ok (lengthen_push length [.ttl p])
  | dds r =>
    rw [perform, perform, addDds_eq hs, addDds_eq hs', ddsEvent_lengthen length hs]
    cases b.ddsEvent [] r with
    | error e => rfl
    | ok e => exact congrArg Except.ok (lengthen_push length [.dds e])
  | extend other =>
    rw [perform_extend other hs, perform_extend other hs']
    show (if b.timing.maxLength < other then _ else _) = _
    split
    · rfl
    · exact congrArg Except.ok (lengthen_lengthen length other)

/-- A length does not matter to what requests in turn do. -/
lemma inTurn_lengthen (hs : b.sequence = some s) {requests : List Request}
    (single : ∀ q ∈ requests, q.single = true) (index : Nat) :
    inTurn index (b.lengthen length) requests =
      (·.lengthen length) <$> inTurn index b requests := by
  induction requests generalizing index b s with
  | nil => rfl
  | cons q rest ih =>
    obtain ⟨hq, hrest⟩ := List.forall_mem_cons.mp single
    have hfirst := single_lengthen length hs hq
    cases hperform : b.perform q with
    | error e =>
      rw [hperform] at hfirst
      rw [inTurn_of_error hperform, inTurn_of_error hfirst]
      rfl
    | ok b₁ =>
      rw [hperform] at hfirst
      obtain ⟨s₁, hs₁⟩ := (lengthens_of_single hq hperform).exists_sequence
      rw [inTurn_of_ok hperform, inTurn_of_ok hfirst, ih hs₁ hrest]

/-- A request is granted or refused as it would be without the explicit length, and what it does is
the same. -/
lemma perform_lengthen (hs : b.sequence = some s) (hq : q ≠ .newSequence) :
    (b.lengthen length).perform q = (·.lengthen length) <$> b.perform q := by
  rcases q.kinds with rfl | hsingle | ⟨-, entries, batch⟩
  · exact absurd rfl hq
  · exact single_lengthen length hs hsingle
  · rw [perform_batch hs batch, perform_batch (sequence_lengthen length hs) batch]
    exact inTurn_lengthen length hs batch.single 0

end

/-- In either order two requests lead to the same builder, and each of them is refused as it would
be without the other one. -/
structure Commute (b : Builder) (q q' : Request) : Prop where
  same : (b.step q).step q' = (b.step q').step q
  first : ∀ e, (b.step q').perform q = .error e ↔ b.perform q = .error e
  second : ∀ e, (b.step q).perform q' = .error e ↔ b.perform q' = .error e

/-- After another request there still is a sequence, and lengths are bounded as before. -/
lemma step_keeps (hs : b.sequence = some s) (hq : q ≠ .newSequence) :
    (∃ s', (b.step q).sequence = some s') ∧ (b.step q).timing = b.timing := by
  cases h : b.perform q with
  | ok b' =>
    rw [step_of_ok h]
    exact ⟨(lengthens_of_perform hq h).exists_sequence, perform_timing h⟩
  | error e =>
    rw [step_of_error h]
    exact ⟨⟨s, hs⟩, rfl⟩

/-- A length does not matter to what any request does but the one for a new sequence. -/
lemma step_lengthen (hs : b.sequence = some s) (length : Nat) (hq : q ≠ .newSequence) :
    (b.lengthen length).step q = (b.step q).lengthen length := by
  have h := perform_lengthen length hs hq
  cases hperform : b.perform q with
  | ok b' =>
    rw [hperform] at h
    rw [step_of_ok h, step_of_ok hperform]
  | error e =>
    rw [hperform] at h
    rw [step_of_error h, step_of_error hperform]

/-- A length and any request but that for a new sequence may be asked for in either order. -/
lemma commute_extend (hs : b.sequence = some s) (length : Nat) (hq : q ≠ .newSequence) :
    b.Commute (.extend length) q := by
  obtain ⟨⟨s', hs'⟩, htiming⟩ := step_keeps hs hq
  have before := perform_extend length hs
  have after := perform_extend length hs'
  rw [htiming] at after
  -- the length is granted, or refused, in both orders
  split at before
  case isTrue hlong =>
    rw [if_pos hlong] at after
    constructor
    · rw [step_of_error before, step_of_error after]
    · rw [before, after]
      exact fun _ => Iff.rfl
    · rw [step_of_error before]
      exact fun _ => Iff.rfl
  case isFalse hshort =>
    rw [if_neg hshort] at after
    constructor
    · rw [step_of_ok before, step_of_ok after, step_lengthen hs length hq]
    · rw [before, after]
      exact fun _ => iff_of_false nofun nofun
    · rw [step_of_ok before, perform_lengthen length hs hq]
      intro e
      cases b.perform q <;> simp [Functor.map, Except.map]

/-! ## The length after a run -/

/-- The least bound of some times, if there are any, is the greatest of them. -/
lemma isGreatest_of_le_iff {ends : Set Nat} {length : Nat}
    (h : ∀ n, length ≤ n ↔ ∀ m ∈ ends, m ≤ n) : IsGreatest (insert 0 ends) length := by
  constructor
  · rcases Nat.eq_zero_or_pos length with hzero | hpos
    · exact .inl hzero
    · -- otherwise the time before it is a bound as well
      by_contra hmem
      have hbound : length ≤ length - 1 := (h (length - 1)).mpr fun m hm => by
        have hle := (h length).mp le_rfl m hm
        have hne : m ≠ length := fun heq => hmem (.inr (heq ▸ hm))
        omega
      omega
  · rintro m (rfl | hm)
    · exact Nat.zero_le length
    · exact (h length).mp le_rfl m hm

/-- What is known of the length of the sequence `s` that the builder `b` holds after some requests.
It is the greatest end of what was granted, within the longest sequence. No further request shortens
it, and a refused one leaves everything as it is. It does not matter when a length is asked for. A
program is the shortest one that covers the length. -/
structure Measured (b : Builder) (requests : List Request) (s : Sequence) : Prop where
  isGreatest : IsGreatest (insert 0 {n | ∃ q ∈ b.granted requests, n ∈ q.ends}) s.declaredLength
  le_maxLength : s.declaredLength ≤ b.timing.maxLength
  grows : ∀ q, q ≠ .newSequence →
    ∃ s', ((b.run requests).step q).sequence = some s' ∧ s.declaredLength ≤ s'.declaredLength
  refused : ∀ q e, (b.run requests).perform q = .error e → (b.run requests).step q = b.run requests
  commute : ∀ length q, q ≠ .newSequence → (b.run requests).Commute (.extend length) q
  isLeast : ∀ p, (b.run requests).compile = .ok p →
    IsLeast {n | s.declaredLength ≤ n * b.timing.resolution} p.totalTicks

/-- The sequence that a builder has begun is measured after every run of requests. -/
theorem run_measured (b : Builder) {requests : List Request}
    (hnew : ∀ q ∈ requests, q ≠ .newSequence) :
    ∃ s, (b.newSequence.run requests).sequence = some s ∧ Measured b.newSequence requests s := by
  have hempty : b.newSequence.sequence = some .empty := rfl
  obtain ⟨s₀, s, hs₀, hs, hends⟩ := lengthens_of_run hempty hnew
  cases hempty.symm.trans hs₀
  have htiming := (run_setup b.newSequence requests).2
  refine ⟨s, hs, ?_⟩
  constructor
  case isGreatest =>
    refine isGreatest_of_le_iff fun n => ?_
    rw [hends]
    simp [Sequence.declaredLength, Sequence.empty, Sequence.finish]
  case le_maxLength =>
    rw [← htiming]
    exact (run_sound newSequence_sound requests s hs).declaredLength_le
  case grows =>
    intro q hq
    cases h : (b.newSequence.run requests).perform q with
    | error e => exact ⟨s, by rw [step_of_error h, hs], le_rfl⟩
    | ok b' =>
      -- what the request asks for comes on top of the length so far
      obtain ⟨s₁, s', hs₁, hs', hlonger⟩ := lengthens_of_perform hq h
      cases hs.symm.trans hs₁
      exact ⟨s', by rw [step_of_ok h, hs'], ((hlonger _).mp le_rfl).1⟩
  case refused => exact fun q e h => step_of_error h
  case commute => exact fun length q hq => commute_extend hs length hq
  case isLeast =>
    intro p hp
    rw [compile, hs, htiming] at hp
    obtain ⟨ttl, dds, compiled⟩ := Compiled.of_compile hp
    obtain ⟨hres, -, htotal⟩ := Timing.ceilTicks_eq_ok.mp compiled.total
    rw [← htotal]
    exact Timing.isLeast_cover hres s.declaredLength

/-- Of these requests the batch is refused, and so is the last one for a length. -/
def flashRequests : List Request :=
  [.ttl ⟨"shutter", 0, 600⟩, .ddss [repumpAt 0, repumpAt 200], .extend 610, .extend 100000000000]

/-- A length of 610 ns is that of 16 ticks. -/
theorem flash_measured :
    (∀ q ∈ flashRequests, q ≠ .newSequence) ∧
      ∃ s p, Measured (new repumpRegistry repumpConfiguration.timing).newSequence flashRequests s ∧
        s.declaredLength = 610 ∧
        ((new repumpRegistry repumpConfiguration.timing).newSequence.run flashRequests).compile =
          .ok p ∧ p.totalTicks = 16 := by
  have hnew : ∀ q ∈ flashRequests, q ≠ .newSequence := by simp [flashRequests]
  obtain ⟨s, hs, measured⟩ := run_measured (new repumpRegistry repumpConfiguration.timing) hnew
  obtain ⟨p, hp, htotal⟩ :=
    exists_compile_of_run ofConfiguration_repump (.newSequence :: flashRequests) rfl
      (by decide) (by decide)
  exact ⟨hnew, s, p, measured, congrArg _ (Option.some.inj (hs.symm.trans rfl)), hp, htotal⟩

end Builder

end PulseSequencer
