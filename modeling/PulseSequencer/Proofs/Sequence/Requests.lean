import PulseSequencer.Proofs.Sequence.Transition

/-!
# Lists of requests

What a request adds to a sequence is settled by the request alone. What was added before matters in
one respect only: no DDS event may overlap an earlier one. So a list of requests is accepted exactly
if each of them can be granted on its own and no two of their DDS events overlap, in whatever order.

* `Builder.performAll`: requests that have to be accepted one after the other.
* `Builder.Request.Asks`: what a request adds.
* `Sequence.Similar`: sequences with the same entries, in any order, and the same explicit length.
* `Builder.performAll_eq_ok`: which lists are accepted, and what they leave.
* `Builder.performAll_perm`: a list in another order is accepted as well.
-/

namespace PulseSequencer

/-! ## Sequences with the same entries -/

namespace Sequence

/-- The entries of two sequences, and the greater of their explicit lengths. -/
def join (s s' : Sequence) : Sequence := ⟨s.events ++ s'.events, max s.extended s'.extended⟩

/-- No two DDS events share a channel and a time. -/
def Apart (s : Sequence) : Prop := s.ddsEvents.Pairwise fun a b => a.overlaps b = false

/-- Two sequences have the same entries, in any order, and the same explicit length. -/
structure Similar (s s' : Sequence) : Prop where
  events : s.events.Perm s'.events
  extended : s.extended = s'.extended

variable {s s' s'' : Sequence}

/-- The DDS events of two sequences are those of both. -/
lemma ddsEvents_join (s s' : Sequence) : (s.join s').ddsEvents = s.ddsEvents ++ s'.ddsEvents :=
  List.filterMap_append

/-- No events are apart. -/
lemma apart_empty : Sequence.empty.Apart := List.Pairwise.nil

/-- A pulse does not overlap a DDS event. -/
lemma apart_join_ttl (p : TtlPulse) : (s.join ⟨[.ttl p], 0⟩).Apart ↔ s.Apart := by
  rw [Apart, ddsEvents_join]
  show (s.ddsEvents ++ []).Pairwise _ ↔ _
  rw [List.append_nil, Apart]

/-- An event may be added if it overlaps none that is there. -/
lemma apart_join_dds (e : DdsEvent) :
    (s.join ⟨[.dds e], 0⟩).Apart ↔ s.Apart ∧ ∀ a ∈ s.ddsEvents, a.overlaps e = false := by
  rw [Apart, ddsEvents_join]
  show (s.ddsEvents ++ [e]).Pairwise _ ↔ _
  rw [List.pairwise_append, Apart]
  simp

/-- Events that are apart were so before others were added. -/
lemma Apart.of_join (h : (s.join s').Apart) : s.Apart := by
  rw [Apart, ddsEvents_join] at h
  exact (List.pairwise_append.mp h).1

/-- Events that are apart were so before many others were added. -/
lemma Apart.of_foldl_join {added : List Sequence} (h : (added.foldl join s).Apart) : s.Apart := by
  induction added generalizing s with
  | nil => exact h
  | cons a rest ih => exact (ih h).of_join

namespace Similar

/-- Similarity is reflexive. -/
lemma refl (s : Sequence) : s.Similar s := ⟨.refl _, rfl⟩

/-- Similarity is transitive. -/
lemma trans (h : s.Similar s') (h' : s'.Similar s'') : s.Similar s'' :=
  ⟨h.events.trans h'.events, h.extended.trans h'.extended⟩

/-- Similar sequences stay similar when the same entries are added. -/
lemma join (h : s.Similar s') (a : Sequence) : (s.join a).Similar (s'.join a) := by
  constructor
  · exact h.events.append_right a.events
  · show max s.extended a.extended = max s'.extended a.extended
    rw [h.extended]

/-- The order in which entries are added does not matter. -/
lemma join_right_comm (s a b : Sequence) : ((s.join a).join b).Similar ((s.join b).join a) := by
  constructor
  · show (s.events ++ a.events ++ b.events).Perm (s.events ++ b.events ++ a.events)
    rw [List.append_assoc, List.append_assoc]
    exact List.perm_append_comm.append_left s.events
  · exact Nat.max_right_comm s.extended a.extended b.extended

/-- Similar sequences stay similar when the same entries are added again and again. -/
lemma foldl_join (h : s.Similar s') (added : List Sequence) :
    (added.foldl Sequence.join s).Similar (added.foldl Sequence.join s') := by
  induction added generalizing s s' with
  | nil => exact h
  | cons a rest ih => exact ih (h.join a)

/-- Additions in another order lead to the same entries. -/
lemma of_perm {added added' : List Sequence} (perm : added.Perm added') (s : Sequence) :
    (added.foldl Sequence.join s).Similar (added'.foldl Sequence.join s) := by
  induction perm generalizing s with
  | nil => exact refl s
  | cons a _ ih => exact ih (s.join a)
  | swap a b rest => exact (join_right_comm s b a).foldl_join rest
  | trans _ _ ih ih' => exact (ih s).trans (ih' s)

/-- Similar sequences have the same DDS events. -/
lemma ddsEvents (h : s.Similar s') : s.ddsEvents.Perm s'.ddsEvents := h.events.filterMap _

/-- Similar sequences have the same pulses. -/
lemma ttlPulses (h : s.Similar s') : s.ttlPulses.Perm s'.ttlPulses := h.events.filterMap _

/-- If the events of a sequence are apart, so are those of a similar one. -/
lemma apart (h : s.Similar s') (hs : s.Apart) : s'.Apart :=
  h.ddsEvents.pairwise hs DdsEvent.overlaps_comm

end Similar

end Sequence

namespace Builder

/-! ## What a request adds -/

/-- Carries out requests one after the other, as long as they are accepted. -/
def performAll (b : Builder) (requests : List Request) : Except Error Builder :=
  requests.foldlM perform b

namespace Request

/-- Whether a request is for one entry or for a length. -/
def single : Request → Bool
  | .ttl _ | .dds _ | .extend _ => true
  | .newSequence | .ttls _ | .ddss _ => false

/-- What a request adds to a sequence, if it can be granted on its own. -/
inductive Asks (registry : Registry) (timing : Timing) : Request → Sequence → Prop
  | ttl {r : TtlRequest} {line : UInt8} :
    registry.hardwareIndex r.channel = .ok line → timing.Fits r.start r.length →
    Asks registry timing (.ttl r) ⟨[.ttl ⟨line, r.start, r.length⟩], 0⟩
  | dds {r : DdsRequest} {d : DdsChannel} :
    registry.ddsNamed r.channel = .ok d → d.checkFrequency r.frequency = .ok () →
    d.checkAmplitude r.amplitude = .ok () → checkProfile d.name r.profile = .ok () →
    checkPhase d.name r.phase = .ok () → timing.Fits r.start r.length →
    Asks registry timing (.dds r)
      ⟨[.dds ⟨d.index, r.start, r.length, r.frequency, r.amplitude, r.phase, r.profile⟩], 0⟩
  | extend {length : Nat} :
    length ≤ timing.maxLength → Asks registry timing (.extend length) ⟨[], length⟩

end Request

variable {registry : Registry} {timing : Timing} {s : Sequence} {b : Builder}

/-- The first request is carried out, and then the others. -/
lemma performAll_cons (q : Request) (rest : List Request) :
    b.performAll (q :: rest) = b.perform q >>= fun b' => b'.performAll rest :=
  List.foldlM_cons

/-- A pulse is made of a request exactly if its name is that of a line and its interval fits. -/
lemma ttlPulse_eq_ok {r : TtlRequest} {p : TtlPulse} :
    b.ttlPulse r = .ok p ↔
      ∃ line, b.registry.hardwareIndex r.channel = .ok line ∧ b.timing.Fits r.start r.length ∧
        ⟨line, r.start, r.length⟩ = p := by
  simp only [ttlPulse, Result.bind_eq_ok, checkWindow_eq_ok, exists_and_left, exists_const, pure,
    Except.pure, Except.ok.injEq]

/-- Entries are added to the sequence that is there. -/
lemma push_some (events : List Event) :
    push ⟨registry, timing, some s⟩ events =
      ⟨registry, timing, some (s.join ⟨events, 0⟩)⟩ := by
  show Builder.mk registry timing (some ⟨s.events ++ events, s.extended⟩) = _
  rw [Sequence.join, Nat.max_zero]

/-- A request is accepted exactly if it can be granted on its own and its DDS event, if it has one,
overlaps none of the sequence. -/
lemma perform_eq_ok {q : Request} (hq : q.single = true) (hs : s.Apart) :
    perform ⟨registry, timing, some s⟩ q = .ok b ↔
      ∃ a, q.Asks registry timing a ∧ (s.join a).Apart ∧
        ⟨registry, timing, some (s.join a)⟩ = b := by
  cases q with
  | newSequence | ttls _ | ddss _ => cases hq
  | ttl r =>
    constructor
    · intro h
      obtain ⟨-, p, hp, rfl⟩ := addTtl_eq_ok.mp h
      obtain ⟨line, hline, fits, rfl⟩ := ttlPulse_eq_ok.mp hp
      exact ⟨_, .ttl hline fits, (Sequence.apart_join_ttl _).mpr hs, (push_some _).symm⟩
    · rintro ⟨_, asks, -, rfl⟩
      cases asks with
      | ttl hline fits =>
        exact addTtl_eq_ok.mpr ⟨⟨s, rfl⟩, _, ttlPulse_eq_ok.mpr ⟨_, hline, fits, rfl⟩, push_some _⟩
  | dds r =>
    constructor
    · intro h
      obtain ⟨-, e, he, rfl⟩ := addDds_eq_ok.mp h
      obtain ⟨⟨d, hd, hfrequency, hamplitude, hprofile, hphase, rfl⟩, fits, s', hs', clear⟩ :=
        ddsEvent_eq_ok.mp he
      cases hs'
      rw [List.append_nil] at clear
      exact ⟨_, .dds hd hfrequency hamplitude hprofile hphase fits,
        (Sequence.apart_join_dds _).mpr ⟨hs, clear⟩, (push_some _).symm⟩
    · rintro ⟨_, asks, apart, rfl⟩
      cases asks with
      | dds hd hfrequency hamplitude hprofile hphase fits =>
        -- no event is pending: those of the sequence are all that it could overlap
        have clear := ((Sequence.apart_join_dds _).mp apart).2
        rw [← List.append_nil s.ddsEvents] at clear
        have accepted : Accepted ⟨registry, timing, some s⟩ [] r _ :=
          ⟨⟨_, hd, hfrequency, hamplitude, hprofile, hphase, rfl⟩, fits, s, rfl, clear⟩
        exact addDds_eq_ok.mpr ⟨⟨s, rfl⟩, _, ddsEvent_eq_ok.mpr accepted, push_some _⟩
  | extend length =>
    have extended : s.join ⟨[], length⟩ = s.extend length := by
      rw [Sequence.join, List.append_nil]
      rfl
    constructor
    · intro h
      obtain ⟨-, hlength, rfl⟩ := extend_eq_ok.mp h
      exact ⟨_, .extend hlength, extended ▸ hs, by rw [extended]; rfl⟩
    · rintro ⟨_, asks, -, rfl⟩
      cases asks with
      | extend hlength => exact extend_eq_ok.mpr ⟨⟨s, rfl⟩, hlength, by rw [extended]; rfl⟩

/-- A list of requests is accepted exactly if each can be granted on its own and no two of the DDS
events that it leaves overlap. -/
lemma performAll_eq_ok {requests : List Request} (single : ∀ q ∈ requests, q.single = true)
    (hs : s.Apart) :
    performAll ⟨registry, timing, some s⟩ requests = .ok b ↔
      ∃ added, List.Forall₂ (Request.Asks registry timing) requests added ∧
        (added.foldl Sequence.join s).Apart ∧
        ⟨registry, timing, some (added.foldl Sequence.join s)⟩ = b := by
  induction requests generalizing s with
  | nil =>
    constructor
    · rintro ⟨⟩
      exact ⟨[], .nil, hs, rfl⟩
    · rintro ⟨_, ⟨⟩, -, rfl⟩
      rfl
  | cons q rest ih =>
    obtain ⟨hq, hrest⟩ := List.forall_mem_cons.mp single
    rw [performAll_cons, Result.bind_eq_ok]
    constructor
    · rintro ⟨b', hb', h⟩
      obtain ⟨a, asks, apart, rfl⟩ := (perform_eq_ok hq hs).mp hb'
      obtain ⟨added, asked, apart', rfl⟩ := (ih hrest apart).mp h
      exact ⟨a :: added, .cons asks asked, apart', rfl⟩
    · rintro ⟨_, asked, apart, rfl⟩
      cases asked with
      | cons asks asked =>
        rw [List.foldl_cons] at apart ⊢
        -- events that are apart in the end were so after each request
        have first := apart.of_foldl_join
        exact ⟨_, (perform_eq_ok hq hs).mpr ⟨_, asks, first, rfl⟩,
          (ih hrest first).mpr ⟨_, asked, apart, rfl⟩⟩

/-- Requests that are accepted in one order are accepted in any other, and leave the same
entries. -/
lemma performAll_perm {requests requests' : List Request}
    (single : ∀ q ∈ requests, q.single = true) (perm : requests.Perm requests') (hs : s.Apart)
    (h : performAll ⟨registry, timing, some s⟩ requests = .ok b) :
    ∃ t t', Sequence.Similar t t' ∧ b = ⟨registry, timing, some t⟩ ∧
      performAll ⟨registry, timing, some s⟩ requests' = .ok ⟨registry, timing, some t'⟩ := by
  obtain ⟨added, asked, apart, rfl⟩ := (performAll_eq_ok single hs).mp h
  obtain ⟨added', asked', perm'⟩ := List.perm_comp_forall₂ perm.symm asked
  have similar := Sequence.Similar.of_perm perm'.symm s
  have single' : ∀ q ∈ requests', q.single = true := fun q hq => single q (perm.mem_iff.mpr hq)
  exact ⟨_, _, similar, rfl,
    (performAll_eq_ok single' hs).mpr ⟨added', asked', similar.apart apart, rfl⟩⟩

/-- Requests that are all accepted are a run without a refusal. -/
lemma run_of_performAll {requests : List Request} {b' : Builder}
    (h : b.performAll requests = .ok b') : b.run requests = b' := by
  induction requests generalizing b with
  | nil => cases h; rfl
  | cons q rest ih =>
    rw [performAll_cons, Result.bind_eq_ok] at h
    obtain ⟨b₁, hq, hrest⟩ := h
    rw [run, List.foldl_cons, step_of_ok hq]
    exact ih hrest

end Builder

end PulseSequencer
