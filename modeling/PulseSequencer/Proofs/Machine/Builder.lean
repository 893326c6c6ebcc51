import PulseSequencer.Proofs.Machine.Sequence

/-!
# What a machine does for a builder

The requests to a builder and the questions about its sequence, computed by the machine. A builder
that holds a sound sequence is safe: none of this is trapped, whatever is requested.

* `Machine.perform`: the requests.
* `Machine.compileCurrent`, `Machine.currentGrid`, `Machine.currentTransitions`: the questions.
* `Builder.Safe`, `Builder.safe_of_sound`: nothing is trapped.
-/

namespace PulseSequencer

namespace Machine

/-! ## Requests -/

/-- Whether two events share a channel and a time. -/
def overlaps (a b : DdsEvent) : Except Error Bool :=
  if a.channel == b.channel then do
    let bFinish ← add b.start b.length
    let aFinish ← add a.start a.length
    return a.start < bFinish && b.start < aFinish
  else return false

/-- The event of a request, if it is sound and overlaps neither an event of the sequence nor one of
the `pending` events of the same batch. -/
def ddsEvent (b : Builder) (pending : List DdsEvent) (r : DdsRequest) : Except Error DdsEvent := do
  let dds ← b.registry.ddsNamed r.channel
  b.checkWindow r.start r.length
  dds.checkFrequency r.frequency
  dds.checkAmplitude r.amplitude
  Builder.checkProfile dds.name r.profile
  Builder.checkPhase dds.name r.phase
  let event : DdsEvent :=
    ⟨dds.index, r.start, r.length, r.frequency, r.amplitude, r.phase, r.profile⟩
  let s ← b.current
  let taken ← (s.ddsEvents ++ pending).anyM (overlaps · event)
  if taken then throw (.ddsOverlap dds.name r.start)
  return event

/-- The events of a batch whose first request has the place `index`, after the `pending` ones. -/
def ddsEvents (b : Builder) : (index : Nat) → (pending : List DdsEvent) → List DdsRequest →
    Except Error (List DdsEvent)
  | _, pending, [] => .ok pending
  | index, pending, r :: rest => do
    let e ← Builder.atEntry index (ddsEvent b pending r)
    ddsEvents b (index + 1) (pending ++ [e]) rest

/-- Carries out a request. Those for pulses and for a length only compare times with the longest
sequence. -/
def perform (b : Builder) : Builder.Request → Except Error Builder
  | .dds r => do
    let _ ← b.current
    let e ← ddsEvent b [] r
    return b.push [.dds e]
  | .ddss rs => do
    let _ ← b.current
    let es ← ddsEvents b 0 [] rs
    return b.push (es.map .dds)
  | q => b.perform q

/-! ## Questions -/

/-- The program of the current sequence. -/
def compileCurrent (b : Builder) : Except Error Program :=
  match b.sequence with
  | some s => compile s b.registry b.timing
  | none => .error .emptySequence

/-- The grid view of the current sequence. -/
def currentGrid (b : Builder) : Except Error Grid := do
  let s ← b.current
  grid s b.registry b.timing

/-- The DDS changes of the current sequence, in the order of time. -/
def currentTransitions (b : Builder) : Except Error (List NamedTransition) := do
  let s ← b.current
  let ts ← transitions s b.timing
  ts.mapM fun t => do
    let time ← mul t.tick b.timing.resolution
    let name := match b.registry.ddsAt? t.channel with
      | some d => d.name
      | none => Registry.ddsLabel t.channel
    return ⟨name, time, t⟩

/-! ## Refusals are no traps -/

/-- There is a current sequence or not, without a trap. -/
lemma untrapped_current (b : Builder) : Result.Untrapped b.current := by
  unfold Builder.current
  split
  · exact Result.untrapped_ok _
  · exact Result.untrapped_error rfl

/-- The place of a refused entry is told without a trap. -/
lemma untrapped_atEntry {α : Type} {r : Except Error α} (h : Result.Untrapped r) (index : Nat) :
    Result.Untrapped (Builder.atEntry index r) := by
  cases r with
  | ok a => exact Result.untrapped_ok a
  | error e => exact Result.untrapped_error rfl

/-- A name is that of a line or not, without a trap. -/
lemma untrapped_hardwareIndex (registry : Registry) (name : String) :
    Result.Untrapped (registry.hardwareIndex name) := by
  refine Result.untrapped_map ?_
  unfold Registry.channel
  split
  · exact Result.untrapped_ok _
  · exact Result.untrapped_error rfl

/-- A name is that of a DDS channel or not, without a trap. -/
lemma untrapped_ddsNamed (registry : Registry) (name : String) :
    Result.Untrapped (registry.ddsNamed name) := by
  unfold Registry.ddsNamed
  split
  · exact Result.untrapped_ok _
  · exact Result.untrapped_error rfl

/-- A window fits into the longest sequence or not, without a trap. -/
lemma untrapped_checkWindow (b : Builder) (start length : Nat) :
    Result.Untrapped (b.checkWindow start length) := by
  refine Result.untrapped_ite (Result.untrapped_ite ?_ (Result.untrapped_ok ())) ?_
  · exact Result.untrapped_error rfl
  · exact Result.untrapped_error rfl

/-- A frequency is in range or not, without a trap. -/
lemma untrapped_checkFrequency (d : DdsChannel) (megahertz : Float) :
    Result.Untrapped (d.checkFrequency megahertz) :=
  Result.untrapped_ite (Result.untrapped_ok ()) (Result.untrapped_error rfl)

/-- An amplitude is in range or not, without a trap. -/
lemma untrapped_checkAmplitude (d : DdsChannel) (dbm : Float) :
    Result.Untrapped (d.checkAmplitude dbm) :=
  Result.untrapped_ite (Result.untrapped_ok ()) (Result.untrapped_error rfl)

/-- A profile is accepted or refused, without a trap. -/
lemma untrapped_checkProfile (name : String) (profile : Option UInt8) :
    Result.Untrapped (Builder.checkProfile name profile) := by
  cases profile with
  | none => exact Result.untrapped_ok ()
  | some p => exact Result.untrapped_ite (Result.untrapped_error rfl) (Result.untrapped_ok ())

/-- A phase is finite or refused, without a trap. -/
lemma untrapped_checkPhase (name : String) (phase : Option Float) :
    Result.Untrapped (Builder.checkPhase name phase) := by
  cases phase with
  | none => exact Result.untrapped_ok ()
  | some x => exact Result.untrapped_ite (Result.untrapped_ok ()) (Result.untrapped_error rfl)

/-- A pulse is added or refused, without a trap. -/
lemma untrapped_ttlPulse (b : Builder) (r : TtlRequest) : Result.Untrapped (b.ttlPulse r) :=
  Result.untrapped_bind (untrapped_hardwareIndex _ _) fun _ _ =>
    Result.untrapped_bind (untrapped_checkWindow _ _ _) fun _ _ => Result.untrapped_ok _

/-- Pulses are added or refused, without a trap. -/
lemma untrapped_ttlPulses (b : Builder) (index : Nat) (rs : List TtlRequest) :
    Result.Untrapped (b.ttlPulses index rs) := by
  induction rs generalizing index with
  | nil => exact Result.untrapped_ok _
  | cons r rest ih =>
    refine Result.untrapped_bind (untrapped_atEntry (untrapped_ttlPulse b r) _) fun _ _ => ?_
    exact Result.untrapped_bind (ih (index + 1)) fun _ _ => Result.untrapped_ok _

/-- A DDS event is added or refused, without a trap. -/
lemma untrapped_ddsEvent (b : Builder) (pending : List DdsEvent) (r : DdsRequest) :
    Result.Untrapped (b.ddsEvent pending r) := by
  refine Result.untrapped_bind (untrapped_ddsNamed _ _) fun d _ => ?_
  refine Result.untrapped_bind (untrapped_checkWindow _ _ _) fun _ _ => ?_
  refine Result.untrapped_bind (untrapped_checkFrequency _ _) fun _ _ => ?_
  refine Result.untrapped_bind (untrapped_checkAmplitude _ _) fun _ _ => ?_
  refine Result.untrapped_bind (untrapped_checkProfile _ _) fun _ _ => ?_
  refine Result.untrapped_bind (untrapped_checkPhase _ _) fun _ _ => ?_
  refine Result.untrapped_bind (untrapped_current b) fun _ _ => ?_
  exact Result.untrapped_unless rfl fun _ => Result.untrapped_ok _

/-- DDS events are added or refused, without a trap. -/
lemma untrapped_ddsEvents (b : Builder) (index : Nat) (pending : List DdsEvent)
    (rs : List DdsRequest) : Result.Untrapped (b.ddsEvents index pending rs) := by
  induction rs generalizing index pending with
  | nil => exact Result.untrapped_ok _
  | cons r rest ih =>
    exact Result.untrapped_bind (untrapped_atEntry (untrapped_ddsEvent b pending r) _) fun _ _ =>
      ih (index + 1) _

/-- A request is accepted or refused, without a trap. -/
lemma untrapped_perform (b : Builder) (q : Builder.Request) : Result.Untrapped (b.perform q) := by
  cases q with
  | newSequence => exact Result.untrapped_ok _
  | ttl r =>
    exact Result.untrapped_bind (untrapped_current b) fun _ _ =>
      Result.untrapped_bind (untrapped_ttlPulse b r) fun _ _ => Result.untrapped_ok _
  | ttls rs =>
    exact Result.untrapped_bind (untrapped_current b) fun _ _ =>
      Result.untrapped_bind (untrapped_ttlPulses b 0 rs) fun _ _ => Result.untrapped_ok _
  | dds r =>
    exact Result.untrapped_bind (untrapped_current b) fun _ _ =>
      Result.untrapped_bind (untrapped_ddsEvent b [] r) fun _ _ => Result.untrapped_ok _
  | ddss rs =>
    exact Result.untrapped_bind (untrapped_current b) fun _ _ =>
      Result.untrapped_bind (untrapped_ddsEvents b 0 [] rs) fun _ _ => Result.untrapped_ok _
  | extend length =>
    exact Result.untrapped_bind (untrapped_current b) fun _ _ =>
      Result.untrapped_unless rfl fun _ => Result.untrapped_ok _

/-! ## Requests to a builder with a sound sequence -/

section

variable {b : Builder} (ht : b.timing.Bounded)
include ht

/-- Whether two events overlap is computed, if both end within the longest sequence. -/
lemma overlaps_eq_ok {a e : DdsEvent} (ha : a.finish ≤ b.timing.maxLength)
    (he : e.finish ≤ b.timing.maxLength) : overlaps a e = .ok (a.overlaps e) := by
  have haspan := add_eq_ok (ht.reaches.mono ha).lt_span
  have hespan := add_eq_ok (ht.reaches.mono he).lt_span
  rw [overlaps, hespan, haspan, DdsEvent.overlaps, Bool.and_assoc]
  cases a.channel == e.channel <;> rfl

variable (h : b.Sound)
include h

/-- The window of a request is checked before its event is compared with others. -/
lemma ddsEvent_eq {pending : List DdsEvent}
    (hpending : ∀ e ∈ pending, e.finish ≤ b.timing.maxLength) (r : DdsRequest) :
    ddsEvent b pending r = b.ddsEvent pending r := by
  -- both pass the same checks; only the comparison with other events adds times
  refine Result.bind_congr fun d _ => Result.bind_congr fun _ hwindow => ?_
  refine Result.bind_congr fun _ _ => Result.bind_congr fun _ _ => ?_
  refine Result.bind_congr fun _ _ => Result.bind_congr fun _ _ => ?_
  refine Result.bind_congr fun s hs => ?_
  let event : DdsEvent :=
    ⟨d.index, r.start, r.length, r.frequency, r.amplitude, r.phase, r.profile⟩
  have hevent : event.finish ≤ b.timing.maxLength := (Builder.checkWindow_eq_ok.mp hwindow).1
  have hothers : ∀ a ∈ s.ddsEvents ++ pending, a.finish ≤ b.timing.maxLength := by
    intro a ha
    rcases List.mem_append.mp ha with ha | ha
    · exact (h s (Builder.current_eq_ok.mp hs)).finish_le (Sequence.mem_ddsEvents.mp ha)
    · exact hpending a ha
  have htaken : (s.ddsEvents ++ pending).anyM (overlaps · event) =
      .ok ((s.ddsEvents ++ pending).any (·.overlaps event)) :=
    Result.anyM_eq_ok fun a ha => overlaps_eq_ok ht (hothers a ha) hevent
  rw [htaken]
  rfl

/-- The events of a batch are computed, if those before them end within the longest sequence. -/
lemma ddsEvents_eq {pending : List DdsEvent}
    (hpending : ∀ e ∈ pending, e.finish ≤ b.timing.maxLength) (index : Nat)
    (rs : List DdsRequest) : ddsEvents b index pending rs = b.ddsEvents index pending rs := by
  induction rs generalizing index pending with
  | nil => rfl
  | cons r rest ih =>
    rw [ddsEvents, Builder.ddsEvents, ddsEvent_eq ht h hpending]
    refine Result.bind_congr fun e he => ih (fun e' he' => ?_) (index + 1)
    rcases List.mem_append.mp he' with he' | he'
    · exact hpending e' he'
    · rw [List.mem_singleton.mp he']
      exact (Builder.sound_of_ddsEvent (Builder.atEntry_eq_ok.mp he)).1.1

/-- Every request is computed. -/
lemma perform_computes (q : Builder.Request) : Computes (perform b q) (b.perform q) := by
  refine ⟨?_, untrapped_perform b q⟩
  have hnone : ∀ e ∈ ([] : List DdsEvent), e.finish ≤ b.timing.maxLength := nofun
  cases q with
  | dds r => exact Result.bind_congr fun _ _ => by rw [ddsEvent_eq ht h hnone]
  | ddss rs => exact Result.bind_congr fun _ _ => by rw [ddsEvents_eq ht h hnone]
  | _ => rfl

/-! ## Questions about a sound sequence -/

/-- The program is computed, if lines are lines of the board and pulses can be counted. -/
lemma compileCurrent_computes (hlines : ∀ line, b.registry.HasLine line → line.toNat < lineLimit)
    (hroom : ∀ s, b.sequence = some s → s.events.length < 2 ^ 31) :
    Computes (compileCurrent b) b.compile := by
  unfold compileCurrent Builder.compile
  cases hs : b.sequence with
  | none => exact ⟨rfl, Result.untrapped_error rfl⟩
  | some s => exact compile_computes ht (h s hs) hlines (hroom s hs)

/-- The grid is computed. -/
lemma currentGrid_computes : Computes (currentGrid b) b.grid := by
  have computes (s : Sequence) (hs : b.current = .ok s) :=
    grid_computes ((h s (Builder.current_eq_ok.mp hs)).reaches ht) b.registry
  exact ⟨Result.bind_congr fun s hs => (computes s hs).same,
    Result.untrapped_bind (untrapped_current b) fun s hs => (computes s hs).untrapped⟩

/-- The DDS changes are computed. -/
lemma currentTransitions_computes : Computes (currentTransitions b) b.transitions := by
  have hnone (s : Sequence) : ¬(b.timing.resolution = 0 ∧ s.ddsEvents ≠ []) :=
    fun hzero => ht.resolution_ne hzero.1
  constructor
  case same =>
    refine Result.bind_congr fun s hs => ?_
    have hreaches := (h s (Builder.current_eq_ok.mp hs)).reaches ht
    rw [if_neg (hnone s), transitions_eq_ok hreaches]
    refine Result.mapM_eq_ok fun t hmem => ?_
    rw [mul_eq_ok (tick_mul_lt hreaches hmem)]
    rfl
  case untrapped =>
    refine Result.untrapped_bind (untrapped_current b) fun s _ => ?_
    rw [if_neg (hnone s)]
    exact Result.untrapped_ok _

end

end Machine

/-! ## Safety -/

open Machine in
/-- Nothing that is requested of a builder is trapped, and nothing that is asked about its sequence.
The machine counts the pulses of a sequence in 31 bits. -/
structure Builder.Safe (b : Builder) : Prop where
  perform (q : Builder.Request) : Computes (Machine.perform b q) (b.perform q)
  compile (hroom : ∀ s, b.sequence = some s → s.events.length < 2 ^ 31) :
    Computes (compileCurrent b) b.compile
  grid : Computes (currentGrid b) b.grid
  rectangular (g : Grid) (hg : b.grid = .ok g) : g.Rectangular
  cell (g : Grid) (hg : b.grid = .ok g) (label : String) (nanos : Nat) :
    Machine.isActive g label nanos = .ok (g.isActive label nanos)
  transitions : Computes (currentTransitions b) b.transitions

/-- A builder with a sound sequence is safe. -/
lemma Builder.safe_of_sound {b : Builder} (ht : b.timing.Bounded)
    (hlines : ∀ line, b.registry.HasLine line → line.toNat < lineLimit) (h : b.Sound) :
    b.Safe := by
  have rectangular (g : Grid) (hg : b.grid = .ok g) : g.Rectangular := by
    obtain ⟨s, -, hgrid⟩ := Result.bind_eq_ok.mp hg
    exact Grid.rectangular_of_ofSequence hgrid
  exact {
    perform := Machine.perform_computes ht h
    compile := Machine.compileCurrent_computes ht h hlines
    grid := Machine.currentGrid_computes ht h
    rectangular
    cell := fun g hg => Machine.isActive_eq_ok (rectangular g hg)
    transitions := Machine.currentTransitions_computes ht h }

end PulseSequencer
