import PulseSequencer.Proofs.Program.Compile
import PulseSequencer.Proofs.Sequence.Transition

/-!
# The synthesizers of a program

The last record of a DDS channel up to a tick tells what the channel puts out in that tick. If an
event covers the tick, it is the record that switches this event on; if none does, the channel was
never touched or was switched off by the record at the end of an earlier event.

* `DdsRecord.SwitchesOn`, `DdsRecord.SwitchesOff`: the two records of an event.
* `DdsRecord.latest`: the last record of a channel up to a tick.
* `ddsSection_tells_state`: what the last record is, for the sequences of a builder;
  `narrow_gap_is_closed` is a case of it.
-/

namespace PulseSequencer

namespace DdsRecord

/-- The record that switches an event on: its first tick, its profile or 0, and its frequency,
amplitude and phase scaled to words. -/
structure SwitchesOn (registry : Registry) (timing : Timing) (e : DdsEvent) (r : DdsRecord) :
    Prop where
  tick : r.tick.toNat = timing.ticks e.start
  channel : r.channel = e.channel
  profile : r.profile = e.profile.getD 0
  words : ∃ d, registry.ddsAt? e.channel = some d ∧
    r.frequency = d.boardFrequency.word e.frequency ∧
    r.amplitude = d.boardAmplitude.half e.amplitude ∧ r.phase = phaseHalf (e.phase.getD 0.0)

/-- The record that switches an event off in the tick in which it ends: neither amplitude nor phase
are left. -/
structure SwitchesOff (registry : Registry) (timing : Timing) (e : DdsEvent) (r : DdsRecord) :
    Prop where
  tick : r.tick.toNat = timing.ticks e.finish
  channel : r.channel = e.channel
  profile : r.profile = e.profile.getD 0
  words : ∃ d, registry.ddsAt? e.channel = some d ∧
    r.frequency = d.boardFrequency.word e.frequency
  amplitude : r.amplitude = 0
  phase : r.phase = 0

/-- The last record of a channel up to a tick. -/
def latest (c : UInt8) (t : Nat) (records : List DdsRecord) : Option DdsRecord :=
  (records.filter fun r => r.channel == c && decide (r.tick.toNat ≤ t)).getLast?

/-- The order of records by tick and then by channel. -/
def InOrder (a b : DdsRecord) : Prop := a.tick < b.tick ∨ a.tick = b.tick ∧ a.channel ≤ b.channel

end DdsRecord

section
variable {registry : Registry} {timing : Timing}

/-- The record of a change: the registry knows its channel, and its tick fits a word. -/
lemma ddsRecord_eq_ok {x : Transition} {r : DdsRecord} (h : ddsRecord registry timing x = .ok r) :
    ∃ d tick, registry.ddsAt? x.channel = some d ∧ tickWord timing x.tick = .ok tick ∧
      r = ⟨tick, x.channel, x.profile, d.boardFrequency.word x.frequency,
        if x.on then d.boardAmplitude.half x.amplitude else 0,
        if x.on then phaseHalf x.phase else 0⟩ := by
  unfold ddsRecord at h
  split at h
  case h_1 => cases h
  case h_2 d hd =>
    obtain ⟨tick, htick, h⟩ := Result.bind_eq_ok.mp h
    cases h
    exact ⟨d, tick, hd, htick, rfl⟩

/-- The record `r` stands at the tick and the channel of a change. -/
def Transition.Placed (x : Transition) (r : DdsRecord) : Prop :=
  r.tick.toNat = x.tick ∧ r.channel = x.channel

/-- The record of a change stands at its tick and its channel. -/
lemma placed_of_ddsRecord {x : Transition} {r : DdsRecord}
    (h : ddsRecord registry timing x = .ok r) : x.Placed r := by
  obtain ⟨d, tick, _, htick, rfl⟩ := ddsRecord_eq_ok h
  exact ⟨toNat_of_tickWord htick, rfl⟩

/-- The record of a change that switches on does so. -/
lemma switchesOn_of_ddsRecord {e : DdsEvent} {r : DdsRecord}
    (h : ddsRecord registry timing (Transition.rise timing e) = .ok r) :
    r.SwitchesOn registry timing e := by
  obtain ⟨d, tick, hd, htick, rfl⟩ := ddsRecord_eq_ok h
  exact ⟨toNat_of_tickWord htick, rfl, rfl, d, hd, rfl, rfl, rfl⟩

/-- The record of a change that switches off does so. -/
lemma switchesOff_of_ddsRecord {e : DdsEvent} {r : DdsRecord}
    (h : ddsRecord registry timing (Transition.fall timing e) = .ok r) :
    r.SwitchesOff registry timing e := by
  obtain ⟨d, tick, hd, htick, rfl⟩ := ddsRecord_eq_ok h
  exact ⟨toNat_of_tickWord htick, rfl, rfl, ⟨d, hd, rfl⟩, rfl, rfl⟩

/-- The last record of a channel up to a tick is that of its last change. -/
lemma rel_latest {xs : List Transition} {records : List DdsRecord}
    (h : List.Forall₂ (fun x r => ddsRecord registry timing x = .ok r) xs records) (c : UInt8)
    (t : Nat) :
    Option.Rel (fun x r => ddsRecord registry timing x = .ok r) (Transition.latest c t xs)
      (DdsRecord.latest c t records) := by
  apply Result.rel_getLast?
  apply List.rel_filter _ h
  intro x r hr
  obtain ⟨htick, hchannel⟩ := placed_of_ddsRecord hr
  simp [htick, hchannel]

/-- The records of changes are in order. -/
lemma inOrder_of_compileDds {s : Sequence} {records : List DdsRecord}
    (h : compileDds s registry timing = .ok records) : records.Pairwise DdsRecord.InOrder := by
  apply Result.pairwise_of_forall₂ (Result.forall₂_of_mapM h) (s.transitions_sorted timing)
  intro x r x' r' hr hr' hle
  obtain ⟨htick, hchannel⟩ := placed_of_ddsRecord hr
  obtain ⟨htick', hchannel'⟩ := placed_of_ddsRecord hr'
  rw [Transition.le_iff, ← htick, ← htick', ← hchannel, ← hchannel'] at hle
  rw [DdsRecord.InOrder, BitVec.lt_def, ← BitVec.toNat_inj, UInt8.le_iff_toNat_le]
  exact hle

/-- A section has as many records as its sequence has changes, at most two for each event. -/
lemma length_compileDds_le {s : Sequence} {records : List DdsRecord}
    (h : compileDds s registry timing = .ok records) : records.length ≤ 2 * s.ddsEvents.length := by
  rw [← (Result.forall₂_of_mapM h).length_eq]
  exact s.length_transitions_le timing

/-- Separate events of a channel do not cover a tick together. -/
lemma Timing.Separate.filter_covers_eq {timing : Timing} {events : List DdsEvent}
    (sep : timing.Separate events) {timing' : Timing} {t : Nat} {e : DdsEvent} (he : e ∈ events)
    (covers : e.Covers timing' t) :
    events.filter (fun e' => e'.channel = e.channel ∧ e'.Covers timing' t) = [e] := by
  -- of two events that cover the tick one would end before the other begins
  have alone : (events.filter fun e' => e'.channel = e.channel ∧ e'.Covers timing' t).Pairwise
      fun _ _ => False := by
    refine (sep.apart.filter _).imp_of_mem fun {a b} ha hb hab => ?_
    obtain ⟨hac, hacovers⟩ := of_decide_eq_true (List.mem_filter.mp ha).2
    obtain ⟨hbc, hbcovers⟩ := of_decide_eq_true (List.mem_filter.mp hb).2
    rcases DdsEvent.overlaps_eq_false.mp hab (hac.trans hbc.symm) with h | h
    · have := timing'.ticks_mono h
      have := hacovers.1
      have := hbcovers.2
      omega
    · have := timing'.ticks_mono h
      have := hacovers.2
      have := hbcovers.1
      omega
  have mem : e ∈ events.filter fun e' => e'.channel = e.channel ∧ e'.Covers timing' t :=
    List.mem_filter.mpr ⟨he, decide_eq_true ⟨rfl, covers⟩⟩
  generalize (events.filter fun e' => e'.channel = e.channel ∧ e'.Covers timing' t) = covering
    at alone mem
  cases alone with
  | nil => cases mem
  | @cons first rest hfirst _ =>
    have hrest : rest = [] := List.eq_nil_iff_forall_not_mem.mpr hfirst
    rw [hrest] at mem ⊢
    rw [List.mem_singleton.mp mem]

end

/-- The DDS section of a sequence that a builder came to hold, compiled under any timing: its
records are in order, and the last one of a channel up to a tick is the one that switches on the
event that covers the tick. There is only one such event. If there is none, the channel has no
record so far or was switched off last. The section is read back from the program as far as its word
of length can count, so whole for fewer than `2 ^ 31` events. -/
theorem ddsSection_tells_state {registry registry' : Registry} {timing timing' : Timing}
    {requests : List Builder.Request} {s : Sequence} {p : Program} (hres : timing.resolution ≠ 0)
    (hs : ((Builder.new registry timing).run requests).sequence = some s)
    (h : compile s registry' timing' = .ok p) :
    ∃ records, compileDds s registry' timing' = .ok records ∧
      p.ddsRecords = records.take (records.length % Word.count) ∧
      (s.ddsEvents.length < 2147483648 → p.ddsRecords = records) ∧
      records.Pairwise DdsRecord.InOrder ∧
      ∀ c t,
        (∀ e ∈ s.ddsEvents, e.channel = c → e.Covers timing' t →
          s.ddsEvents.filter (fun e' => e'.channel = c ∧ e'.Covers timing' t) = [e] ∧
          ∃ r, DdsRecord.latest c t records = some r ∧ r.SwitchesOn registry' timing' e) ∧
        ((∀ e ∈ s.ddsEvents, e.channel = c → ¬e.Covers timing' t) →
          ∀ r, DdsRecord.latest c t records = some r →
            ∃ e ∈ s.ddsEvents, e.channel = c ∧ r.SwitchesOff registry' timing' e) := by
  obtain ⟨ttl, records, hp⟩ := Compiled.of_compile h
  have sep := Builder.run_separate registry timing requests hs
  have written := Result.forall₂_of_mapM hp.ddsSection
  refine ⟨records, hp.ddsSection, hp.ddsRecords, fun hfew => ?_,
    inOrder_of_compileDds hp.ddsSection, fun c t => ⟨?_, ?_⟩⟩
  · have hlength := length_compileDds_le hp.ddsSection
    have hcount : records.length < Word.count := by
      unfold Word.count
      omega
    rw [hp.ddsRecords, Nat.mod_eq_of_lt hcount, List.take_length]
  · rintro e he rfl covers
    refine ⟨sep.filter_covers_eq he covers, ?_⟩
    -- the records stand for the changes one by one, the last one for the last change
    have rel := rel_latest written e.channel t
    rw [s.latest_transitions_of_covers sep hres he covers] at rel
    cases hr : DdsRecord.latest e.channel t records with
    | none => rw [hr] at rel; cases rel
    | some r =>
      rw [hr] at rel
      cases rel with
      | some hrecord => exact ⟨r, rfl, switchesOn_of_ddsRecord hrecord⟩
  · intro hnone r hr
    have rel := rel_latest written c t
    rw [hr] at rel
    cases hx : Transition.latest c t (s.transitions timing') with
    | none => rw [hx] at rel; cases rel
    | some x =>
      obtain ⟨e, he, hc, rfl⟩ := s.latest_transitions_of_not_covers sep hres hnone hx
      rw [hx] at rel
      cases rel with
      | some hrecord => exact ⟨e, he, hc, switchesOff_of_ddsRecord hrecord⟩

/-- A registry with one synthesizer channel. -/
def coolingRegistry : Registry := ⟨[], [.standard "cooling" 1 ⟨150.0, 250.0⟩ ⟨-63.0, -3.0⟩]⟩

/-- A sequence that drives the synthesizer twice, with less than a tick in between. -/
def narrowGap : Sequence :=
  ⟨[.dds ⟨1, 0, 410, 200.0, -10.0, none, none⟩, .dds ⟨1, 430, 370, 210.0, -10.0, none, none⟩], 0⟩

/-- The first event is not switched off: the second one takes over in the same tick. -/
lemma narrowGap_transitions :
    narrowGap.transitions ⟨40, 10000⟩ =
      [.rise ⟨40, 10000⟩ ⟨1, 0, 410, 200.0, -10.0, none, none⟩,
        .rise ⟨40, 10000⟩ ⟨1, 430, 370, 210.0, -10.0, none, none⟩,
        .fall ⟨40, 10000⟩ ⟨1, 430, 370, 210.0, -10.0, none, none⟩] := by
  rw [Sequence.transitions, List.mergeSort_of_pairwise (l := narrowGap.ddsEvents) (by decide),
    List.mergeSort_of_pairwise (by decide)]
  rfl

/-- The TTL section of the sequence is all low. -/
lemma compileTtl_narrowGap :
    compileTtl narrowGap.ttlPulses ⟨40, 10000⟩ 20 = .ok [⟨0, 0⟩, ⟨20, 0⟩] := by
  have : narrowGap.ttlPulses = [] := rfl
  rw [this]
  cbv

/-- The sequence has a program. -/
lemma compile_narrowGap : ∃ p, compile narrowGap coolingRegistry ⟨40, 10000⟩ = .ok p := by
  have hdds : ∃ records, compileDds narrowGap coolingRegistry ⟨40, 10000⟩ = .ok records := by
    rw [compileDds, narrowGap_transitions]
    simp [ddsRecord, Registry.ddsAt?, coolingRegistry, DdsChannel.standard, Transition.rise,
      Transition.fall, tickWord, Timing.ticks, Word.count, DdsEvent.finish, Except.bind,
      Except.pure, bind, pure]
  obtain ⟨records, hrecords⟩ := hdds
  have compiled : Compiled narrowGap coolingRegistry ⟨40, 10000⟩
      ⟨Program.ofRecords [⟨0, 0⟩, ⟨20, 0⟩] records, 20⟩ [⟨0, 0⟩, ⟨20, 0⟩] records :=
    ⟨by decide, rfl, Nat.noConfusion, compileTtl_narrowGap, hrecords, rfl⟩
  exact ⟨_, compiled.compile_eq_ok⟩

/-- A gap of less than a tick is closed: the second event is on from the tick in which the first one
ends. -/
theorem narrow_gap_is_closed :
    (40 : Nat) ≠ 0 ∧ ∃ p,
      ((Builder.new coolingRegistry ⟨40, 10000⟩).run
        [.newSequence, .dds ⟨"cooling", 0, 410, 200.0, -10.0, none, none⟩,
          .dds ⟨"cooling", 430, 370, 210.0, -10.0, none, none⟩]).sequence = some narrowGap ∧
      compile narrowGap coolingRegistry ⟨40, 10000⟩ = .ok p ∧
      ∀ t, 10 ≤ t → t < 20 → ∃ r, DdsRecord.latest 1 t p.ddsRecords = some r ∧
        r.SwitchesOn coolingRegistry ⟨40, 10000⟩ ⟨1, 430, 370, 210.0, -10.0, none, none⟩ := by
  obtain ⟨p, hp⟩ := compile_narrowGap
  have hrun : ((Builder.new coolingRegistry ⟨40, 10000⟩).run
      [.newSequence, .dds ⟨"cooling", 0, 410, 200.0, -10.0, none, none⟩,
        .dds ⟨"cooling", 430, 370, 210.0, -10.0, none, none⟩]).sequence = some narrowGap := rfl
  refine ⟨by decide, p, hrun, hp, fun t hlow hhigh => ?_⟩
  obtain ⟨records, _, _, hread, _, hstate⟩ := ddsSection_tells_state (by decide) hrun hp
  rw [hread (by decide)]
  have hmem : (⟨1, 430, 370, 210.0, -10.0, none, none⟩ : DdsEvent) ∈ narrowGap.ddsEvents :=
    .tail _ (.head _)
  exact ((hstate 1 t).1 _ hmem rfl ⟨hlow, hhigh⟩).2

end PulseSequencer
