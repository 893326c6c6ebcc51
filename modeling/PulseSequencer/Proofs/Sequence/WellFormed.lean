import PulseSequencer.Proofs.Registry
import PulseSequencer.Proofs.Sequence.Batch
import PulseSequencer.Proofs.Sequence.Entries

/-!
# Well-formed sequences

Every entry that a builder lets in is on a line or on a DDS channel of the configuration, lasts at
least a tick and ends within the longest sequence. A DDS event is within the ranges of its channel,
and two events of one channel are apart, in time and in ticks as well. Nothing else keeps an entry
out: what meets these conditions is let in.

* `DdsChannel.Takes`: a channel can be in the state of an event.
* `DdsEvent.ApartBy`: two events of one channel are apart by a clock.
* `Sequence.WellFormed`: what every sequence of a builder is.
* `Builder.Holds`, `Builder.run_entries`: what is true of entries that can be asked for is true of
  those of a sequence.
* `Builder.Guards`: a well-formed sequence, and what is let into it.
* `Builder.run_guards`: a builder guards its sequence; `repump_guarded` is a case of it.
-/

namespace PulseSequencer

/-- An event is on a channel and within its ranges. -/
structure DdsChannel.Takes (d : DdsChannel) (e : DdsEvent) : Prop where
  channel : e.channel = d.index
  frequency : d.allowedFrequency.contains e.frequency = true
  amplitude : d.allowedAmplitude.contains e.amplitude = true
  profile : ∀ n ∈ e.profile, n ≤ maxProfile
  phase : ∀ x ∈ e.phase, x.isFinite = true

/-- By a clock one of two events of a channel is over when the other one begins. -/
def DdsEvent.ApartBy (clock : Nat → Nat) (a b : DdsEvent) : Prop :=
  a.channel = b.channel → clock a.finish ≤ clock b.start ∨ clock b.finish ≤ clock a.start

/-- The event that a request makes on a channel. -/
def DdsRequest.eventOn (r : DdsRequest) (d : DdsChannel) : DdsEvent :=
  ⟨d.index, r.start, r.length, r.frequency, r.amplitude, r.phase, r.profile⟩

/-- An entry fits and is on a line of the board that has a channel, or on a DDS channel that takes
it. -/
def Event.WellFormed (config : Configuration) : Event → Prop
  | ttl p => config.timing.Fits p.start p.length ∧ p.line < config.channelTotal ∧
    ∃ c ∈ config.channels, c.index = p.line
  | dds e => config.timing.Fits e.start e.length ∧ ∃ d ∈ config.dds, d.Takes e

/-- The entries of a sequence are well-formed, none is empty in ticks, and the DDS events of a
channel are apart, both in time and in ticks. -/
structure Sequence.WellFormed (config : Configuration) (s : Sequence) : Prop where
  entries : ∀ e ∈ s.events, e.WellFormed config
  nonempty : ∀ e ∈ s.events, config.timing.ticks e.start < config.timing.ticks e.finish
  apart : s.ddsEvents.Pairwise (DdsEvent.ApartBy id)
  apartInTicks : s.ddsEvents.Pairwise (DdsEvent.ApartBy config.timing.ticks)

/-! ## The conditions one by one -/

/-- A frequency is accepted exactly if it is in the range of its channel. -/
lemma DdsChannel.checkFrequency_eq_ok {d : DdsChannel} {megahertz : Float} :
    d.checkFrequency megahertz = .ok () ↔ d.allowedFrequency.contains megahertz = true := by
  simp [checkFrequency]

/-- An amplitude is accepted exactly if it is in the range of its channel. -/
lemma DdsChannel.checkAmplitude_eq_ok {d : DdsChannel} {dbm : Float} :
    d.checkAmplitude dbm = .ok () ↔ d.allowedAmplitude.contains dbm = true := by
  simp [checkAmplitude]

/-- A profile is accepted exactly if it is none or no greater than the highest one. -/
lemma Builder.checkProfile_eq_ok {name : String} {profile : Option UInt8} :
    checkProfile name profile = .ok () ↔ ∀ n ∈ profile, n ≤ maxProfile := by
  cases profile with
  | none => simp [checkProfile]
  | some n => simp [checkProfile]

/-- A phase is accepted exactly if it is none or finite. -/
lemma Builder.checkPhase_eq_ok {name : String} {phase : Option Float} :
    checkPhase name phase = .ok () ↔ ∀ x ∈ phase, x.isFinite = true := by
  cases phase with
  | none => simp [checkPhase]
  | some x => simp [checkPhase]

/-- A channel takes the event of a request if the request passes its checks. -/
lemma DdsChannel.takes_eventOn {d : DdsChannel} {r : DdsRequest} :
    d.Takes (r.eventOn d) ↔ d.checkFrequency r.frequency = .ok () ∧
      d.checkAmplitude r.amplitude = .ok () ∧ Builder.checkProfile d.name r.profile = .ok () ∧
      Builder.checkPhase d.name r.phase = .ok () := by
  rw [checkFrequency_eq_ok, checkAmplitude_eq_ok, Builder.checkProfile_eq_ok,
    Builder.checkPhase_eq_ok]
  exact ⟨fun h => ⟨h.frequency, h.amplitude, h.profile, h.phase⟩,
    fun ⟨frequency, amplitude, profile, phase⟩ => ⟨rfl, frequency, amplitude, profile, phase⟩⟩

namespace DdsEvent

variable {a b : DdsEvent}

/-- Events are apart in time exactly if they do not overlap. -/
lemma apartBy_id_iff : a.ApartBy id b ↔ a.overlaps b = false := by
  rw [overlaps_eq_false]
  exact forall_congr' fun _ => or_comm

/-- Events that are apart are so by every clock that does not run backwards. -/
lemma ApartBy.mono (h : a.ApartBy id b) {clock : Nat → Nat} (hclock : Monotone clock) :
    a.ApartBy clock b :=
  fun same => (h same).imp (fun hab => hclock hab) fun hba => hclock hba

end DdsEvent

/-- What lasts as long as a tick begins and ends in different ticks. -/
lemma Timing.ticks_lt_of_le {timing : Timing} (hres : timing.resolution ≠ 0) {start length : Nat}
    (h : timing.resolution ≤ length) : timing.ticks start < timing.ticks (start + length) := by
  have hnext : timing.ticks (start + timing.resolution) = timing.ticks start + 1 :=
    Nat.add_div_right start (Nat.pos_of_ne_zero hres)
  calc timing.ticks start
    _ < timing.ticks (start + timing.resolution) := by rw [hnext]; exact Nat.lt_succ_self _
    _ ≤ timing.ticks (start + length) := timing.ticks_mono (Nat.add_le_add_left h start)

/-- A well-formed entry lasts a tick at least. -/
lemma Event.WellFormed.ticks_lt {config : Configuration} {e : Event} (h : e.WellFormed config)
    (hres : config.timing.resolution ≠ 0) :
    config.timing.ticks e.start < config.timing.ticks e.finish := by
  cases e with
  | ttl p => exact Timing.ticks_lt_of_le hres h.1.2
  | dds e => exact Timing.ticks_lt_of_le hres h.1.2

/-- A sequence is well-formed if its entries are and its DDS events do not overlap. -/
lemma Sequence.WellFormed.of_entries {config : Configuration} {s : Sequence}
    (hres : config.timing.resolution ≠ 0) (entries : ∀ e ∈ s.events, e.WellFormed config)
    (apart : s.Apart) : s.WellFormed config where
  entries := entries
  nonempty e he := (entries e he).ticks_lt hres
  apart := apart.imp DdsEvent.apartBy_id_iff.mpr
  apartInTicks := apart.imp fun h =>
    (DdsEvent.apartBy_id_iff.mpr h).mono fun _ _ => config.timing.ticks_mono

namespace Builder

variable {b b' : Builder}

/-! ## The entries of a sequence -/

section
variable {registry : Registry} {timing : Timing} {P : Event → Prop}

/-- A builder of a registry and a timing. The entries of its sequence, if it has one, have `P`, and
its DDS events are apart: what can be granted next depends on that. -/
structure Holds (registry : Registry) (timing : Timing) (P : Event → Prop) (b : Builder) :
    Prop where
  registry_eq : b.registry = registry
  timing_eq : b.timing = timing
  apart : ∀ s, b.sequence = some s → s.Apart
  entries : ∀ s, b.sequence = some s → ∀ e ∈ s.events, P e

/-- What is said of a builder holds of a new one. -/
lemma holds_new : Holds registry timing P (new registry timing) := ⟨rfl, rfl, nofun, nofun⟩

/-- What is said of a builder holds of one with a new sequence. -/
lemma Holds.newSequence (h : Holds registry timing P b) :
    Holds registry timing P b.newSequence where
  registry_eq := h.registry_eq
  timing_eq := h.timing_eq
  apart s hs := by
    cases hs
    exact Sequence.apart_empty
  entries s hs := by
    cases hs
    exact nofun

/-- A request that is accepted keeps what is said of a builder. -/
lemma Holds.single (asked : ∀ {q a}, Request.Asks registry timing q a → ∀ e ∈ a.events, P e)
    {q : Request} (hq : q.single = true) (hperform : b.perform q = .ok b')
    (h : Holds registry timing P b) : Holds registry timing P b' := by
  obtain ⟨s, hs⟩ := exists_sequence_of_perform (Request.ne_newSequence hq) hperform
  have apart := h.apart s hs
  have entries := h.entries s hs
  obtain ⟨_, _, _⟩ := b
  cases h.registry_eq
  cases h.timing_eq
  cases hs
  obtain ⟨a, asks, apart', rfl⟩ := (perform_eq_ok hq apart).mp hperform
  refine ⟨rfl, rfl, fun s' hs' => ?_, fun s' hs' => ?_⟩ <;> cases hs'
  · exact apart'
  · exact List.forall_mem_append.mpr ⟨entries, asked asks⟩

/-- What is true of every entry that can be asked for is true of every entry of a sequence. -/
lemma run_entries (asked : ∀ {q a}, Request.Asks registry timing q a → ∀ e ∈ a.events, P e)
    (requests : List Request) {s : Sequence}
    (hs : ((new registry timing).run requests).sequence = some s) : ∀ e ∈ s.events, P e :=
  (run_invariant (perform_keeps (.single asked) .newSequence) holds_new requests).entries s hs

end

/-- A builder with a sequence, after a run. -/
lemma run_eq {registry : Registry} {timing : Timing} {requests : List Request} {s : Sequence}
    (hs : ((new registry timing).run requests).sequence = some s) :
    (new registry timing).run requests = ⟨registry, timing, some s⟩ := by
  obtain ⟨sameRegistry, sameTiming⟩ := run_setup (new registry timing) requests
  generalize (new registry timing).run requests = b at sameRegistry sameTiming hs
  cases sameRegistry
  cases sameTiming
  rw [← hs]

/-! ## Requests to a builder of a configuration -/

section
variable {config : Configuration} {registry : Registry}

/-- What is asked of a registry is well-formed. -/
lemma Request.Asks.wellFormed (hregistry : Registry.ofConfiguration config = .ok registry)
    {q : Request} {a : Sequence} (asks : q.Asks registry config.timing a) :
    ∀ e ∈ a.events, e.WellFormed config := by
  cases asks with
  | ttl hline fits =>
    obtain ⟨c, hc, -, rfl⟩ := (Registry.hardwareIndex_eq_ok hregistry).mp hline
    exact List.forall_mem_singleton.mpr ⟨fits, index_lt_channelTotal hregistry hc, c, hc, rfl⟩
  | dds hd hfrequency hamplitude hprofile hphase fits =>
    obtain ⟨hd, -⟩ := (Registry.ddsNamed_eq_ok hregistry).mp hd
    exact List.forall_mem_singleton.mpr ⟨fits, _, hd,
      DdsChannel.takes_eventOn.mpr ⟨hfrequency, hamplitude, hprofile, hphase⟩⟩
  | extend => exact nofun

/-- The sequences of a builder are well-formed. -/
lemma run_wellFormed (hregistry : Registry.ofConfiguration config = .ok registry)
    (requests : List Request) {s : Sequence}
    (hs : ((new registry config.timing).run requests).sequence = some s) : s.WellFormed config :=
  .of_entries (resolution_ne_of_ofConfiguration hregistry)
    (run_entries (fun asks => asks.wellFormed hregistry) requests hs)
    (run_separate registry config.timing requests hs).apart

/-- A pulse is added exactly if its name is that of a channel and its interval fits. -/
lemma addTtl_iff (hregistry : Registry.ofConfiguration config = .ok registry) {s : Sequence}
    {r : TtlRequest} :
    addTtl ⟨registry, config.timing, some s⟩ r = .ok b' ↔
      ∃ c ∈ config.channels, c.name = r.channel ∧ config.timing.Fits r.start r.length ∧
        push ⟨registry, config.timing, some s⟩ [.ttl ⟨c.index, r.start, r.length⟩] = b' := by
  simp only [addTtl_eq_ok, ttlPulse_eq_ok]
  constructor
  · rintro ⟨-, _, ⟨line, hline, fits, rfl⟩, rfl⟩
    obtain ⟨c, hc, hname, rfl⟩ := (Registry.hardwareIndex_eq_ok hregistry).mp hline
    exact ⟨c, hc, hname, fits, rfl⟩
  · rintro ⟨c, hc, hname, fits, rfl⟩
    have hline := (Registry.hardwareIndex_eq_ok hregistry).mpr ⟨c, hc, hname, rfl⟩
    exact ⟨⟨s, rfl⟩, _, ⟨_, hline, fits, rfl⟩, rfl⟩

/-- An event is added exactly if a channel of its name takes it, and it fits and is apart. -/
lemma addDds_iff (hregistry : Registry.ofConfiguration config = .ok registry) {s : Sequence}
    {r : DdsRequest} :
    addDds ⟨registry, config.timing, some s⟩ r = .ok b' ↔
      ∃ d ∈ config.dds, d.name = r.channel ∧ config.timing.Fits r.start r.length ∧
        d.Takes (r.eventOn d) ∧ (∀ a ∈ s.ddsEvents, a.ApartBy id (r.eventOn d)) ∧
        push ⟨registry, config.timing, some s⟩ [.dds (r.eventOn d)] = b' := by
  simp only [addDds_eq_ok, ddsEvent_eq_ok]
  constructor
  · rintro ⟨-, _, ⟨⟨d, hd, hfrequency, hamplitude, hprofile, hphase, rfl⟩, fits, _, hs, clear⟩, rfl⟩
    cases hs
    rw [List.append_nil] at clear
    obtain ⟨hd, hname⟩ := (Registry.ddsNamed_eq_ok hregistry).mp hd
    have takes := DdsChannel.takes_eventOn.mpr ⟨hfrequency, hamplitude, hprofile, hphase⟩
    exact ⟨d, hd, hname, fits, takes, fun a ha => DdsEvent.apartBy_id_iff.mpr (clear a ha), rfl⟩
  · rintro ⟨d, hd, hname, fits, takes, apart, rfl⟩
    have hnamed := (Registry.ddsNamed_eq_ok hregistry).mpr ⟨hd, hname⟩
    obtain ⟨hfrequency, hamplitude, hprofile, hphase⟩ := DdsChannel.takes_eventOn.mp takes
    have clear : ∀ a ∈ s.ddsEvents ++ [], a.overlaps (r.eventOn d) = false := by
      rw [List.append_nil]
      exact fun a ha => DdsEvent.apartBy_id_iff.mp (apart a ha)
    exact ⟨⟨s, rfl⟩, _, ⟨⟨d, hnamed, hfrequency, hamplitude, hprofile, hphase, rfl⟩, fits, s, rfl,
      clear⟩, rfl⟩

/-- The sequence of a builder is well-formed. A TTL request is accepted exactly if its name is that
of a channel and its interval fits. A DDS request is accepted exactly if its name is that of a DDS
channel that takes its event, and the event fits and is apart from those of the sequence. -/
structure Guards (config : Configuration) (b : Builder) (s : Sequence) : Prop where
  wellFormed : s.WellFormed config
  ttl : ∀ r b', b.addTtl r = .ok b' ↔
    ∃ c ∈ config.channels, c.name = r.channel ∧ config.timing.Fits r.start r.length ∧
      b.push [.ttl ⟨c.index, r.start, r.length⟩] = b'
  dds : ∀ r b', b.addDds r = .ok b' ↔
    ∃ d ∈ config.dds, d.name = r.channel ∧ config.timing.Fits r.start r.length ∧
      d.Takes (r.eventOn d) ∧ (∀ a ∈ s.ddsEvents, a.ApartBy id (r.eventOn d)) ∧
      b.push [.dds (r.eventOn d)] = b'

/-- A builder of an accepted configuration guards its sequence, whatever was requested before. -/
theorem run_guards (hregistry : Registry.ofConfiguration config = .ok registry)
    (requests : List Request) {s : Sequence}
    (hs : ((new registry config.timing).run requests).sequence = some s) :
    Guards config ((new registry config.timing).run requests) s := by
  have wellFormed := run_wellFormed hregistry requests hs
  rw [run_eq hs]
  exact ⟨wellFormed, fun _ _ => addTtl_iff hregistry, fun _ _ => addDds_iff hregistry⟩

end

/-- A board with a shutter on line 4 and one synthesizer channel. -/
def repumpConfiguration : Configuration :=
  { Configuration.default with
    channels := [.auto "shutter" 4], dds := [.standard "repump" 1 ⟨150.0, 250.0⟩ ⟨-63.0, -3.0⟩] }

/-- The registry of `repumpConfiguration`. -/
def repumpRegistry : Registry := ⟨repumpConfiguration.channels, repumpConfiguration.dds⟩

set_option maxRecDepth 20000 in
/-- The configuration is accepted. -/
lemma ofConfiguration_repump :
    Registry.ofConfiguration repumpConfiguration = .ok repumpRegistry := by
  have hvalid : repumpConfiguration.validate = .ok () := rfl
  exact ofConfiguration_of_ordered hvalid (List.pairwise_singleton _ _)

/-- A batch is refused since its entries overlap; a shutter pulse and one of the entries are not. -/
def repumpRequests : List Request :=
  [.newSequence, .ttl ⟨"shutter", 0, 600⟩, .ddss [repumpAt 0, repumpAt 200], .dds (repumpAt 200)]

/-- A sequence with a pulse and an event is guarded. -/
theorem repump_guarded :
    ∃ s, Registry.ofConfiguration repumpConfiguration = .ok repumpRegistry ∧
      ((new repumpRegistry repumpConfiguration.timing).run repumpRequests).sequence = some s ∧
      s.events.length = 2 ∧
      Guards repumpConfiguration
        ((new repumpRegistry repumpConfiguration.timing).run repumpRequests) s := by
  have hs : ((new repumpRegistry repumpConfiguration.timing).run repumpRequests).sequence =
      some ⟨[.ttl ⟨4, 0, 600⟩, .dds ⟨1, 200, 400, 200.0, -10.0, none, none⟩], 0⟩ := rfl
  exact ⟨_, ofConfiguration_repump, hs, rfl, run_guards ofConfiguration_repump repumpRequests hs⟩

end Builder

end PulseSequencer
