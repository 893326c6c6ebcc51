import PulseSequencer.Proofs.Sequence.Requests

/-!
# Batches

The entries of a batch are held against the sequence and against the earlier entries of the batch,
which are not in the sequence yet. In turn they would be held against a sequence that has grown by
these. Both come to the same: a batch is accepted exactly if its entries in turn are, and it is
refused with the error of the first entry that would be.

* `Builder.Request.Batch`: the entries of a batch, as requests; `Builder.Request.kinds`: a new
  sequence, a request for one entry or for a length, or a batch.
* `Builder.FirstRefused`: the first of several requests in turn that is refused.
* `Builder.inTurn`: requests in turn, an error marked with its place.
* `Builder.perform_keeps`: an invariant of single requests is one of all requests.
* `Builder.batch_in_turn`: a batch and its entries in turn; `Builder.batch_overlaps_itself` is a
  case of it.
-/

namespace PulseSequencer.Builder

/-- The entries of a batch, as requests of their own. -/
inductive Request.Batch : Request → List Request → Prop where
  | ttls (rs : List TtlRequest) : Batch (.ttls rs) (rs.map .ttl)
  | ddss (rs : List DdsRequest) : Batch (.ddss rs) (rs.map .dds)

/-- A request for an entry or for a length does not begin a new sequence. -/
lemma Request.ne_newSequence {q : Request} (hq : q.single = true) : q ≠ .newSequence := by
  rintro rfl
  cases hq

/-- The entries of a batch are requests for one entry each. -/
lemma Request.Batch.single {q : Request} {entries : List Request} (h : q.Batch entries) :
    ∀ q ∈ entries, q.single = true := by
  cases h <;> exact List.forall_mem_map.mpr fun _ _ => rfl

/-- A request begins a new sequence, is for an entry or for a length, or is a batch. -/
lemma Request.kinds (q : Request) :
    q = .newSequence ∨ q.single = true ∨ q ≠ .newSequence ∧ ∃ entries, q.Batch entries := by
  cases q with
  | newSequence => exact .inl rfl
  | ttl _ | dds _ | extend _ => exact .inr (.inl rfl)
  | ttls rs => exact .inr (.inr ⟨nofun, _, .ttls rs⟩)
  | ddss rs => exact .inr (.inr ⟨nofun, _, .ddss rs⟩)

/-- Of several requests in turn all before the place `k` are accepted, and the one at that place is
refused. -/
def FirstRefused (b : Builder) (requests : List Request) (k : Nat) (e : Error) : Prop :=
  ∃ q b', requests[k]? = some q ∧ b.performAll (requests.take k) = .ok b' ∧ b'.perform q = .error e

/-- Carries out requests in turn, the first of which has the place `index`. An error is marked with
the place of the request that is refused. -/
def inTurn : (index : Nat) → Builder → List Request → Except Error Builder
  | _, b, [] => .ok b
  | index, b, q :: rest => do
    let b' ← atEntry index (b.perform q)
    inTurn (index + 1) b' rest

variable {b b' : Builder} {s : Sequence} {e : Error}

/-! ## Requests in turn -/

/-- Requests in turn are accepted as they are one after the other. -/
lemma inTurn_eq_ok {index : Nat} {requests : List Request} :
    inTurn index b requests = .ok b' ↔ b.performAll requests = .ok b' := by
  induction requests generalizing index b with
  | nil => rfl
  | cons q rest ih => simp only [inTurn, performAll_cons, Result.bind_eq_ok, atEntry_eq_ok, ih]

/-- The first of several requests may be the first one that is refused. -/
lemma firstRefused_zero {q : Request} {rest : List Request} :
    b.FirstRefused (q :: rest) 0 e ↔ b.perform q = .error e := by
  constructor
  · rintro ⟨q', b', hq, hall, herror⟩
    cases hq
    cases hall
    exact herror
  · exact fun herror => ⟨q, b, rfl, rfl, herror⟩

/-- If the first of several requests is accepted, one of the others may be the first one refused. -/
lemma firstRefused_succ {q : Request} {rest : List Request} {k : Nat} :
    b.FirstRefused (q :: rest) (k + 1) e ↔
      ∃ b', b.perform q = .ok b' ∧ b'.FirstRefused rest k e := by
  constructor
  · rintro ⟨q', b₂, hq, hall, herror⟩
    rw [List.take_succ_cons, performAll_cons] at hall
    obtain ⟨b₁, hfirst, hrest⟩ := Result.bind_eq_ok.mp hall
    exact ⟨b₁, hfirst, q', b₂, hq, hrest, herror⟩
  · rintro ⟨b₁, hfirst, q', b₂, hq, hrest, herror⟩
    refine ⟨q', b₂, hq, ?_, herror⟩
    rw [List.take_succ_cons, performAll_cons]
    exact Result.bind_eq_ok.mpr ⟨b₁, hfirst, hrest⟩

section
variable {b₁ : Builder} {source : Error} {q : Request} {rest : List Request}

/-- If the first request is refused, it is the first one that is. -/
lemma firstRefused_of_error (hq : b.perform q = .error source) {k : Nat} :
    b.FirstRefused (q :: rest) k e ↔ k = 0 ∧ source = e := by
  cases k with
  | zero => simp [firstRefused_zero, hq]
  | succ k => simp [firstRefused_succ, hq]

/-- If the first request is accepted, the first one refused comes later. -/
lemma firstRefused_of_ok (hq : b.perform q = .ok b₁) {k : Nat} :
    b.FirstRefused (q :: rest) k e ↔ ∃ j, k = j + 1 ∧ b₁.FirstRefused rest j e := by
  cases k with
  | zero => simp [firstRefused_zero, hq]
  | succ k => simp [firstRefused_succ, hq]

/-- If the first request is refused, so are all in turn, with its place. -/
lemma inTurn_of_error (hq : b.perform q = .error source) (index : Nat) :
    inTurn index b (q :: rest) = .error (.entry index source) := by
  rw [inTurn, hq]
  rfl

/-- If the first request is accepted, the others follow in turn. -/
lemma inTurn_of_ok (hq : b.perform q = .ok b₁) (index : Nat) :
    inTurn index b (q :: rest) = inTurn (index + 1) b₁ rest := by
  rw [inTurn, hq]
  rfl

end

/-- Requests in turn are refused with the place and the error of the first one that is. -/
lemma inTurn_eq_error {index : Nat} {requests : List Request} :
    inTurn index b requests = .error e ↔
      ∃ k source, e = .entry (index + k) source ∧ b.FirstRefused requests k source := by
  induction requests generalizing index b with
  | nil => simp [inTurn, FirstRefused]
  | cons q rest ih =>
    cases hq : b.perform q with
    | error source => simp [inTurn_of_error hq, firstRefused_of_error hq, eq_comm]
    | ok b₁ =>
      rw [inTurn_of_ok hq, ih]
      constructor
      · rintro ⟨k, source, rfl, hfirst⟩
        refine ⟨k + 1, source, ?_, (firstRefused_of_ok hq).mpr ⟨k, rfl, hfirst⟩⟩
        rw [Nat.succ_add_eq_add_succ]
      · rintro ⟨_, source, rfl, hfirst⟩
        obtain ⟨k, rfl, hrest⟩ := (firstRefused_of_ok hq).mp hfirst
        refine ⟨k, source, ?_, hrest⟩
        rw [Nat.succ_add_eq_add_succ]

/-! ## The entries of a batch in turn -/

/-- Entries in two parts are added one part after the other. -/
lemma push_push (events more : List Event) :
    (b.push events).push more = b.push (events ++ more) := by
  obtain ⟨registry, timing, sequence⟩ := b
  cases sequence with
  | none => rfl
  | some s => simp [push, Sequence.append]

/-- No entries add nothing. -/
lemma push_nil : b.push [] = b := by
  obtain ⟨registry, timing, sequence⟩ := b
  cases sequence with
  | none => rfl
  | some s => simp [push, Sequence.append]

/-- Entries are added at the end of the current sequence. -/
lemma sequence_push (hs : b.sequence = some s) (events : List Event) :
    (b.push events).sequence = some (s.append events) := by
  rw [push, hs]
  rfl

/-- With a sequence at hand a TTL request is a matter of its pulse. -/
lemma addTtl_eq (hs : b.sequence = some s) (r : TtlRequest) :
    b.addTtl r = (fun p => b.push [.ttl p]) <$> b.ttlPulse r := by
  rw [addTtl, current_eq_ok.mpr hs]
  cases b.ttlPulse r <;> rfl

/-- With a sequence at hand a DDS request is a matter of its event. -/
lemma addDds_eq (hs : b.sequence = some s) (r : DdsRequest) :
    b.addDds r = (fun e => b.push [.dds e]) <$> b.ddsEvent [] r := by
  rw [addDds, current_eq_ok.mpr hs]
  cases b.ddsEvent [] r <;> rfl

/-- The pulses of requests do not depend on what the sequence holds. -/
lemma ttlPulses_push (events : List Event) (index : Nat) (rs : List TtlRequest) :
    (b.push events).ttlPulses index rs = b.ttlPulses index rs := by
  induction rs generalizing index with
  | nil => rfl
  | cons r rest ih =>
    rw [ttlPulses, ttlPulses, ih]
    rfl

/-- The pending events of a batch count as if they were in the sequence. -/
lemma ddsEvent_push (hs : b.sequence = some s) (pending : List DdsEvent) (r : DdsRequest) :
    (b.push (pending.map .dds)).ddsEvent [] r = b.ddsEvent pending r := by
  have hevents : (s.append (pending.map .dds)).ddsEvents = s.ddsEvents ++ pending := by
    simp [Sequence.append, Sequence.ddsEvents, List.filterMap_map, Function.comp_def, Event.dds?]
  unfold ddsEvent
  rw [current_eq_ok.mpr (sequence_push hs _), current_eq_ok.mpr hs]
  simp only [bind, Except.bind, hevents, List.append_nil]
  rfl

/-- The pulses of a batch are added as they would be in turn. -/
lemma ttlPulses_in_turn (hs : b.sequence = some s) (index : Nat) (rs : List TtlRequest) :
    (fun ps => b.push (ps.map .ttl)) <$> b.ttlPulses index rs =
      inTurn index b (rs.map .ttl) := by
  induction rs generalizing index b s with
  | nil => exact congrArg Except.ok push_nil
  | cons r rest ih =>
    rw [List.map_cons, inTurn, ttlPulses, perform, addTtl_eq hs]
    cases b.ttlPulse r with
    | error e => rfl
    | ok p =>
      -- the rest of the batch finds the pulse in the sequence
      refine .trans ?_ (ih (sequence_push hs [.ttl p]) (index + 1))
      rw [ttlPulses_push]
      show _ <$> (b.ttlPulses (index + 1) rest >>= fun ps => pure (p :: ps)) = _
      cases b.ttlPulses (index + 1) rest with
      | error e => rfl
      | ok ps => exact congrArg Except.ok (push_push [.ttl p] (ps.map .ttl)).symm

/-- The DDS events of a batch are added as they would be in turn, those before them being
pending. -/
lemma ddsEvents_in_turn (hs : b.sequence = some s) (index : Nat) (pending : List DdsEvent)
    (rs : List DdsRequest) :
    (fun es => b.push (es.map .dds)) <$> b.ddsEvents index pending rs =
      inTurn index (b.push (pending.map .dds)) (rs.map .dds) := by
  induction rs generalizing index pending with
  | nil => rfl
  | cons r rest ih =>
    rw [List.map_cons, inTurn, ddsEvents, perform, addDds_eq (sequence_push hs _),
      ddsEvent_push hs]
    cases b.ddsEvent pending r with
    | error e => rfl
    | ok e =>
      have hmore := ih (index + 1) (pending ++ [e])
      rw [List.map_append, ← push_push] at hmore
      exact hmore

/-- A batch is its entries in turn. -/
lemma perform_batch (hs : b.sequence = some s) {q : Request} {entries : List Request}
    (h : q.Batch entries) : b.perform q = inTurn 0 b entries := by
  cases h with
  | ttls rs =>
    rw [← ttlPulses_in_turn hs, perform, addTtls, current_eq_ok.mpr hs]
    cases b.ttlPulses 0 rs <;> rfl
  | ddss rs =>
    have hturn := ddsEvents_in_turn hs 0 [] rs
    rw [List.map_nil, push_nil] at hturn
    rw [← hturn, perform, addDdss, current_eq_ok.mpr hs]
    cases b.ddsEvents 0 [] rs <;> rfl

/-! ## Invariants of requests -/

section
variable {I : Builder → Prop}
  (keep : ∀ {b b' : Builder} {q}, q.single = true → b.perform q = .ok b' → I b → I b')
include keep

/-- What every request for an entry keeps, several of them keep. -/
lemma performAll_keeps {requests : List Request} (single : ∀ q ∈ requests, q.single = true)
    (h : b.performAll requests = .ok b') (hb : I b) : I b' := by
  induction requests generalizing b with
  | nil =>
    cases h
    exact hb
  | cons q rest ih =>
    obtain ⟨hq, hrest⟩ := List.forall_mem_cons.mp single
    rw [performAll_cons] at h
    obtain ⟨b₁, hfirst, h⟩ := Result.bind_eq_ok.mp h
    exact ih hrest h (keep hq hfirst hb)

/-- What new sequences and accepted requests for one entry or for a length keep, every accepted
request keeps. -/
lemma perform_keeps (fresh : ∀ {b : Builder}, I b → I b.newSequence) {q : Request}
    (h : b.perform q = .ok b') (hb : I b) : I b' := by
  rcases q.kinds with rfl | hsingle | ⟨hq, entries, batch⟩
  · cases h
    exact fresh hb
  · exact keep hsingle h hb
  · obtain ⟨s, hs⟩ := exists_sequence_of_perform hq h
    rw [perform_batch hs batch, inTurn_eq_ok] at h
    exact performAll_keeps keep batch.single h hb

end

/-! ## Batches -/

/-- With a sequence at hand a batch is accepted exactly if its entries in turn are, and leaves what
they leave. Otherwise it is refused with the error of the first of them that is refused, marked with
the place of that entry, and leaves everything as it was. -/
theorem batch_in_turn (hs : b.sequence = some s) {q : Request} {entries : List Request}
    (h : q.Batch entries) :
    (∀ b', b.perform q = .ok b' ↔ b.performAll entries = .ok b') ∧
      ∀ e, b.perform q = .error e ↔ ∃ k source, e = .entry k source ∧
        b.FirstRefused entries k source ∧ b.step q = b := by
  have hbatch := perform_batch hs h
  refine ⟨fun b' => by rw [hbatch, inTurn_eq_ok], fun e => ?_⟩
  constructor
  · intro herror
    have hkept : b.step q = b := by rw [step, herror]
    rw [hbatch, inTurn_eq_error] at herror
    obtain ⟨k, source, he, hfirst⟩ := herror
    exact ⟨k, source, by rw [he, Nat.zero_add], hfirst, hkept⟩
  · rintro ⟨k, source, rfl, hfirst, -⟩
    rw [hbatch, inTurn_eq_error]
    exact ⟨k, source, by rw [Nat.zero_add], hfirst⟩

/-- A builder for one synthesizer channel, with an empty sequence. -/
def repumping : Builder :=
  ⟨⟨[], [.standard "repump" 1 ⟨150.0, 250.0⟩ ⟨-63.0, -3.0⟩]⟩, ⟨40, 10000⟩, some .empty⟩

/-- A request for the repumper, 400 ns long. -/
def repumpAt (start : Nat) : DdsRequest := ⟨"repump", start, 400, 200.0, -10.0, none, none⟩

/-- The last entry of a batch overlaps the one before it, which is not in the sequence yet. -/
theorem batch_overlaps_itself :
    repumping.perform (.ddss [repumpAt 0, repumpAt 400, repumpAt 600]) =
        .error (.entry 2 (.ddsOverlap "repump" 600)) ∧
      repumping.FirstRefused [.dds (repumpAt 0), .dds (repumpAt 400), .dds (repumpAt 600)] 2
        (.ddsOverlap "repump" 600) ∧
      repumping.step (.ddss [repumpAt 0, repumpAt 400, repumpAt 600]) = repumping := by
  have hrefused : repumping.perform (.ddss [repumpAt 0, repumpAt 400, repumpAt 600]) =
      .error (.entry 2 (.ddsOverlap "repump" 600)) := rfl
  obtain ⟨k, source, he, hfirst, hkept⟩ := ((batch_in_turn rfl (.ddss _)).2 _).mp hrefused
  cases he
  exact ⟨hrefused, hfirst, hkept⟩

end PulseSequencer.Builder
