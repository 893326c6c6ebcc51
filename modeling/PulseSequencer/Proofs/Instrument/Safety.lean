import PulseSequencer.Proofs.Machine.Builder
import PulseSequencer.Proofs.Instrument.Returns
import PulseSequencer.Proofs.Instrument.Mirror

/-!
# Nothing is trapped

Whatever is asked of an instrument and of the builders of its sessions, nothing is trapped, as long
as failures on the bus are reported. Two facts that were established when the instrument was opened
carry this: the lines of its channels are lines of the board, and its timing has a resolution and
fits 64 bits. Registry and configuration never change, so that the builders rely on them as well.

* `Instrument.Command.returns`, `Instrument.returns_waitDone`: the commands.
* `Instrument.Serves`: the builders of the sessions of an instrument.
* `Instrument.Safe`: nothing that is asked of an instrument is trapped.
* `Instrument.never_trapped`: an instrument is safe in every state, and so are its builders.
-/

namespace PulseSequencer

/-! ## Configurations -/

namespace Configuration

/-- A range of collection times is in order or not, without a trap. -/
lemma untrapped_checkCollectionRange (s : Span) : Result.Untrapped (checkCollectionRange s) :=
  Result.untrapped_ite (Result.untrapped_ok ()) (Result.untrapped_error rfl)

/-- Channels are in order or not, without a trap. -/
lemma untrapped_checkChannels (total : UInt8) (names : List String) (indices : List UInt8)
    (channels : List Channel) : Result.Untrapped (checkChannels total names indices channels) := by
  induction channels generalizing names indices with
  | nil => exact Result.untrapped_ok ()
  | cons c rest ih =>
    refine Result.untrapped_ite (Result.untrapped_error rfl) ?_
    refine Result.untrapped_ite (Result.untrapped_error rfl) ?_
    exact Result.untrapped_ite (Result.untrapped_error rfl) (ih _ _)

/-- DDS channels are in order or not, without a trap. -/
lemma untrapped_checkDds (names : List String) (indices : List UInt8) (dds : List DdsChannel) :
    Result.Untrapped (checkDds names indices dds) := by
  induction dds generalizing names indices with
  | nil => exact Result.untrapped_ok ()
  | cons d rest ih =>
    have ranges : Result.Untrapped d.validate :=
      Result.untrapped_ite (Result.untrapped_ok ()) (Result.untrapped_error rfl)
    refine Result.untrapped_ite (Result.untrapped_error rfl) ?_
    exact Result.untrapped_bind ranges fun _ _ => ih _ _

/-- A configuration is accepted or refused, without a trap. -/
lemma untrapped_validate (c : Configuration) : Result.Untrapped c.validate := by
  unfold validate
  refine Result.untrapped_unless rfl fun _ => ?_
  refine Result.untrapped_unless rfl fun _ => ?_
  refine Result.untrapped_bind (untrapped_checkCollectionRange _) fun _ _ => ?_
  refine Result.untrapped_bind (untrapped_checkChannels _ [] [] _) fun _ _ => ?_
  exact untrapped_checkDds [] [] _

end Configuration

/-! ## Failures on the bus -/

/-- Failures that are expected on the bus are reported. -/
def BusEvent.Reporting : BusEvent → Prop
  | expect (some f) => f.failure.IsReported
  | _ => True

/-- Failures stay reported through an event on the bus. -/
lemma BusEvent.only_apply {e : BusEvent} (he : e.Reporting) {b : Bus}
    (hb : b.Only Failure.IsReported) : (e.apply b).Only Failure.IsReported := by
  cases e with
  | expect fault =>
    intro f hf
    cases hf
    exact he
  | _ => exact hb

/-- Failures stay reported through events on the bus. -/
lemma BusEvent.only_foldl {events : List BusEvent} (hevents : ∀ e ∈ events, e.Reporting) {b : Bus}
    (hb : b.Only Failure.IsReported) :
    (events.foldl (fun b e => e.apply b) b).Only Failure.IsReported := by
  induction events generalizing b with
  | nil => exact hb
  | cons e events ih =>
    obtain ⟨he, hevents⟩ := List.forall_mem_cons.mp hevents
    exact ih hevents (only_apply he hb)

namespace Instrument

/-- Failures that are expected on the bus are reported. -/
def Event.Reporting : Event → Prop
  | .bus e => e.Reporting
  | .command _ => True

/-! ## Runs -/

variable {i : Instrument}

/-- An event leaves registry and configuration as they are. -/
lemma setup_apply (e : Event) (i : Instrument) :
    (e.apply i).registry = i.registry ∧ (e.apply i).config = i.config := by
  cases e with
  | command c => exact ⟨(c.affects i).registry, (c.affects i).config⟩
  | bus e => exact ⟨rfl, rfl⟩

/-- Registry and configuration stay as they are in a run. -/
lemma setup_run (events : List Event) (i : Instrument) :
    (i.run events).registry = i.registry ∧ (i.run events).config = i.config := by
  induction events generalizing i with
  | nil => exact ⟨rfl, rfl⟩
  | cons e events ih =>
    obtain ⟨hregistry, hconfig⟩ := setup_apply e i
    exact ⟨(ih _).1.trans hregistry, (ih _).2.trans hconfig⟩

/-- Failures stay reported through an event. -/
lemma Event.reporting_apply {e : Event} (he : e.Reporting) (hi : i.Reporting) :
    (e.apply i).Reporting := by
  cases e with
  | command c => exact (c.affects i).link.only ⟨_, rfl⟩ hi
  | bus e => exact BusEvent.only_apply he hi

/-- Failures stay reported in a run. -/
lemma reporting_run {events : List Event} (hevents : ∀ e ∈ events, e.Reporting)
    (hi : i.Reporting) : (i.run events).Reporting := by
  induction events generalizing i with
  | nil => exact hi
  | cons e events ih =>
    obtain ⟨he, hevents⟩ := List.forall_mem_cons.mp hevents
    exact ih hevents (Event.reporting_apply he hi)

/-- An instrument is opened with its configuration and the registry of it. -/
lemma setup_of_opened {config : Configuration} {id : String} {bus : Bus}
    (h : opened config id bus = .ok i) :
    Registry.ofConfiguration config = .ok i.registry ∧ i.config = config := by
  obtain ⟨registry, hregistry, rfl⟩ := eq_connect_of_opened h
  rw [connect, after_onLink]
  exact ⟨hregistry, rfl⟩

/-- Failures are reported to an instrument that was opened on such a bus. -/
lemma reporting_of_opened {config : Configuration} {id : String} {bus : Bus}
    (h : opened config id bus = .ok i) (hbus : bus.Only Failure.IsReported) : i.Reporting := by
  obtain ⟨registry, hregistry, rfl⟩ := eq_connect_of_opened h
  exact (Command.affects .connect _).link.only ⟨_, rfl⟩ hbus

/-! ## Commands -/

/-- The builder `b` is that of a session that was opened in some run, after some requests. -/
def Serves (i : Instrument) (b : Builder) : Prop :=
  ∃ events s j requests, openSession (i.run events) = .ok s j ∧ b = s.builder.run requests

/-- If the command uploads the sequence of a session, its builder is one of `B`, and the sequence is
short enough for a machine that counts pulses in 31 bits. -/
def Command.Admitted (B : Builder → Prop) (c : Command) : Prop :=
  ∀ s, c = .programSequence s →
    B s.builder ∧ ∀ q, s.builder.sequence = some q → q.events.length < 2 ^ 31

/-- To keep a collection time is not trapped. -/
lemma returns_storeTime (seconds : Float) (mode : CollectionMode) :
    Returns Reporting (storeTime seconds mode) i := by
  refine returns_get_bind (returns_ofExcept_bind (Counting.untrapped_store _ _ _) fun _ _ => ?_)
  exact returns_onLink (.of_ok rfl id)

/-- A change of the collection time is not trapped. -/
lemma returns_setCollectionTime (seconds : Float) (mode : CollectionMode) :
    Returns Reporting (setCollectionTime seconds mode) i := by
  refine returns_get_bind (returns_ofExcept_bind (Counting.untrapped_checkTime _ _) fun _ _ => ?_)
  cases mode with
  | normal => exact returns_transaction fun _ => .focus (Counting.returns_setNormalTime _ seconds)
  | differential => exact returns_storeTime seconds .differential

/-- The name of a channel stands for a line of the board. -/
lemma returns_switchLine {I : Host → Prop} (hi : Obeys I i) (channel : String)
    (update : LineState → LineState) : Returns Reporting (switchLine channel update) i := by
  refine returns_get_bind (returns_ofExcept_bind (Machine.untrapped_hardwareIndex _ _) ?_)
  intro index hindex
  exact returns_transaction fun _ => Host.returns_switchLine (hi.index_lt _ _ hindex) update

/-- A notice is not trapped. -/
lemma returns_notify (origin : Option SessionId) (channel : String) (event : SwitchEvent) :
    Returns Reporting (notify origin channel event) i :=
  .of_ok rfl id

/-- An upload is not trapped. -/
lemma returns_program (p : Program) : Returns Reporting (program p) i :=
  returns_transaction fun _ => .focus (Controller.returns_program _ p)

/-- A poll of the instrument is not trapped. -/
lemma returns_pollDone : Returns Reporting pollDone i :=
  returns_transaction fun _ => .focus (Controller.returns_pollDone _)

/-- A command is not trapped, in whatever state it finds the instrument. -/
lemma Command.returns (hi : Obeys (Host.Sound fun _ => True) i) {c : Command}
    (hc : ∀ s, c = .programSequence s → Result.Untrapped s.builder.compile) :
    Returns Reporting c.work i := by
  cases c with
  -- a connect and a switch rely on the lines, the upload of a sequence on its builder
  | connect =>
    exact returns_onLink (Link.returns_connect (Host.returns_initialise hi.host.lines))
  | disconnect => exact .of_ok rfl id
  | program p => exact returns_program p
  | programSequence s => exact returns_ofExcept_bind (hc s rfl) fun p _ => returns_program p
  | startSingle => exact returns_transaction fun _ => .focus (Controller.returns_startSingle _)
  | startInfinite =>
    exact returns_transaction fun _ => .focus (Controller.returns_startLooped _ _ _)
  | startCounted count =>
    refine returns_ofExcept_bind (Controller.untrapped_checkRepetitions count) fun _ _ => ?_
    exact returns_transaction fun _ => .focus (Controller.returns_startCounted _ count)
  | complete => exact returns_transaction fun _ => .focus (Controller.returns_complete _)
  | stop => exact returns_transaction fun _ => .focus (Controller.returns_stop _)
  | repetitions =>
    exact .bind (returns_transaction fun _ => .focus (Controller.returns_repetitions _))
      fun _ _ => .pure ()
  | pollDone => exact .bind returns_pollDone fun _ _ => .pure ()
  | counts readTime =>
    exact .bind (returns_transaction fun _ => .focus (Counting.returns_drain _ readTime))
      fun _ _ => .pure ()
  | resetCounts => exact returns_transaction fun _ => .focus (.issue _ _)
  | setMode mode => exact returns_transaction fun _ => .focus (Counting.returns_setMode _ mode)
  | setCollectionTime seconds mode => exact returns_setCollectionTime seconds mode
  | timetags =>
    exact .bind (returns_transaction fun _ => Host.returns_drainTimetags) fun _ _ => .pure ()
  | resetTimetags => exact returns_transaction fun _ => .issue _ _
  | switchManual origin channel level =>
    exact .bind (returns_switchLine hi channel _) fun _ _ => returns_notify _ _ _
  | switchAuto origin channel inverted =>
    exact .bind (returns_switchLine hi channel _) fun _ _ => returns_notify _ _ _
  | openSession => exact .of_ok rfl fun hi => hi
  | closeSession id => exact .of_ok rfl fun hi => hi
  | takeNotice id => exact .of_ok rfl fun hi => hi
  | takeNotices id => exact .of_ok rfl fun hi => hi

/-- Neither is the wait for the end of a run, whatever is reported in its pauses. -/
lemma returns_waitDone {meanwhile : Nat → List BusEvent}
    (hmeanwhile : ∀ k, ∀ e ∈ meanwhile k, e.Reporting) (pauses : Nat) (i : Instrument) :
    Returns Reporting
      (waitDone (fun k b => (meanwhile k).foldl (fun b e => e.apply b) b) pauses) i := by
  induction pauses generalizing i with
  | zero => exact returns_pollDone
  | succ k ih =>
    refine .bind returns_pollDone fun done i => .ite (fun _ => .pure true) fun _ => ?_
    refine .bind (.of_ok rfl fun hi => ?_) fun _ i => ih i
    exact BusEvent.only_foldl (hmeanwhile k) hi

/-! ## Safety -/

/-- Nothing that is asked of an instrument is trapped, if the builders of its sessions are among
`B`. -/
structure Safe (B : Builder → Prop) (i : Instrument) : Prop where
  command {c : Command} (hc : c.Admitted B) : ∀ e i', c.work i = .error e i' → e.isTrap = false
  wait {meanwhile : Nat → List BusEvent} (h : ∀ k, ∀ e ∈ meanwhile k, e.Reporting) (pauses : Nat) :
    ∀ e i', waitDone (fun k b => (meanwhile k).foldl (fun b e => e.apply b) b) pauses i =
      .error e i' → e.isTrap = false
  line (channel : String) : Result.Untrapped (i.lineState channel)

/-- The state of a line is known or not, without a trap. -/
lemma untrapped_lineState (i : Instrument) (channel : String) :
    Result.Untrapped (i.lineState channel) := by
  refine Result.untrapped_bind (Machine.untrapped_hardwareIndex _ _) fun index _ => ?_
  cases i.host.lines index with
  | none => exact Result.untrapped_error rfl
  | some line => exact Result.untrapped_ok line

/-- The builders of an instrument that was opened are safe. -/
lemma Serves.safe {config : Configuration} {id : String} {bus : Bus}
    (h : opened config id bus = .ok i) {b : Builder} (hb : i.Serves b) : b.Safe := by
  obtain ⟨events, s, j, requests, hs, rfl⟩ := hb
  obtain ⟨hregistry, rfl⟩ := setup_of_opened h
  cases hs
  obtain ⟨hregistry', hconfig⟩ := setup_run events i
  -- the builder is about the registry and the timing that were accepted
  have hnew : ((Builder.new (i.run events).registry (i.run events).config.timing).run
      requests).registry = i.registry := (Builder.run_setup _ _).1.trans hregistry'
  have htiming : ((Builder.new (i.run events).registry (i.run events).config.timing).run
      requests).timing = i.config.timing :=
    (Builder.run_setup _ _).2.trans (congrArg Configuration.timing hconfig)
  refine Builder.safe_of_sound ?_ ?_ (Builder.run_sound (Builder.new_sound _ _) requests)
  · rw [htiming]
    exact Timing.bounded_of_ofConfiguration hregistry
  · rw [hnew]
    exact fun line hline => hline.lt hregistry

/-- To open an instrument is not trapped, whatever the configuration is. -/
lemma untrapped_opened (config : Configuration) (id : String) {bus : Bus}
    (hbus : bus.Only Failure.IsReported) : Result.Untrapped (opened config id bus) := by
  have hconfig : Result.Untrapped (Registry.ofConfiguration config) :=
    Result.untrapped_bind config.untrapped_validate fun _ _ => Result.untrapped_ok _
  refine Result.untrapped_bind hconfig fun registry hregistry => ?_
  refine Result.untrapped_bind (fun e he => ?_) fun _ _ => Result.untrapped_ok _
  have hsound := sound_unopened (A := fun _ => True) hregistry trivial id bus
  have hconnect := (Link.returns_connect (Host.returns_initialise hsound.host.lines) hbus).2
  unfold Link.opened at he
  split at he
  case h_1 => cases he
  case h_2 hl =>
    split at he
    · cases he
      exact hconnect _ _ hl
    · cases he

/-- Nothing is trapped, as long as failures on the bus are reported: not the opening of an
instrument; and if it was opened, whatever happens to it, not what is asked of it or of the builders
of its sessions, and not the samples of what it counted. -/
theorem never_trapped (config : Configuration) (id : String) {bus : Bus}
    (hbus : bus.Only Failure.IsReported) :
    Result.Untrapped (opened config id bus) ∧
      ∀ i, opened config id bus = .ok i →
        (∀ events : List Event, (∀ e ∈ events, e.Reporting) → (i.run events).Safe i.Serves) ∧
        (∀ b, i.Serves b → b.Safe) ∧
        ∀ records seconds readTime,
          Machine.samples records seconds readTime =
            .ok (Sample.ofRecords records seconds readTime) := by
  refine ⟨untrapped_opened config id hbus, fun i hi => ⟨fun events hevents => ?_, ?_, ?_⟩⟩
  · have hreporting := reporting_run hevents (reporting_of_opened hi hbus)
    have hsound := ((Reachable.opened hi).run events).sound
    constructor
    case command =>
      intro c hc
      refine (Command.returns hsound (fun s hs => ?_) hreporting).2
      obtain ⟨hserves, hroom⟩ := hc s hs
      exact ((hserves.safe hi).compile hroom).untrapped
    case wait => exact fun h pauses => (returns_waitDone h pauses _ hreporting).2
    case line => exact untrapped_lineState _
  · exact fun b hb => hb.safe hi
  · exact Machine.samples_eq_ok

/-- A builder with the longest sequence, in which the lamp is on for a tick. -/
def longestLamp : Builder :=
  (Builder.new ⟨[.auto "lamp" 3], []⟩ lampConfiguration.timing).run
    [.newSequence, .ttl ⟨"lamp", 0, 40⟩, .extend 85000000000]

set_option maxRecDepth 20000 in
/-- Neither the loss of the board in a switch nor the longest sequence is a trap. -/
theorem lamp_never_trapped :
    (Bus.new .new).Only Failure.IsReported ∧ (∀ e ∈ lostInSwitch, e.Reporting) ∧
      ∃ i, opened lampConfiguration "board" (.new .new) = .ok i ∧
        (i.run lostInSwitch).Safe i.Serves ∧ i.Serves longestLamp ∧ longestLamp.Safe ∧
        longestLamp.sequence.map Sequence.declaredLength = some 85000000000 := by
  have hbus : (Bus.new .new).Only Failure.IsReported := Bus.only_of_fault_none rfl
  have hevents : ∀ e ∈ lostInSwitch, e.Reporting := by
    simp [lostInSwitch, Event.Reporting, BusEvent.Reporting, Failure.IsReported]
  obtain ⟨hsafe, hbuilders, -⟩ := (never_trapped _ _ hbus).2 _ opened_lamp
  have hserves : Serves (after connect
      (unopened lampConfiguration ⟨[.auto "lamp" 3], []⟩ "board" (.new .new))) longestLamp :=
    ⟨[], _, _, _, rfl, rfl⟩
  exact ⟨hbus, hevents, _, opened_lamp, hsafe _ hevents, hserves, hbuilders _ hserves,
    by decide +kernel⟩

end Instrument

end PulseSequencer
