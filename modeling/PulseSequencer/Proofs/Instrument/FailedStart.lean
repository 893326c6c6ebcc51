import PulseSequencer.Proofs.Instrument.Sound
import PulseSequencer.Proofs.Line

/-!
# Starts that fail

A start stages the run bits and commits them as its last operation. If it fails before they are
staged, nothing of it is left. If the commit fails, the run bits stay staged, and whatever is
committed next starts the sequencer, although the start was refused and the sequencer counts as
programmed.

* `Board.StartAborted`: what a failed start has done to the board.
* `Controller.launch_error`: what the last part of a start leaves when it fails.
* `Instrument.StartFailed`: the state that a failed start leaves.
* `Instrument.NeverStarts`: no run without a start raises the run bit.
* `Instrument.failed_start_never_starts_iff`: the failed starts after which it may rise;
  `Instrument.start_after_failed_commit` is one of them.
-/

namespace PulseSequencer

/-- What a start that failed has done to a board: it has staged its run bits or not, and nothing
else that could start the sequencer. -/
def Board.StartAborted (b b' : Board) : Prop :=
  ∃ qs : List Primitive, (∀ q ∈ qs, q.Quiet) ∧
    (b' = b.replay qs ∨ ∃ bits, Control.has bits Control.run = true ∧
      b' = b.replay (qs ++ [.setWire Endpoint.control bits Control.sequencer]))

/-- The sequencer does not run. -/
def RunState.Resting (s : RunState) : Prop := s.isRunning = false

/-- A start that failed leaves the run bit about to rise exactly if it failed in its last commit,
with the run bit low. -/
lemma Board.StartAborted.risePending_iff {b b' : Board} (h : b.StartAborted b')
    (hb : ¬b.RisePending) :
    b'.RisePending ↔ b'.running = false ∧ ∃ qs bits, Control.has bits Control.run = true ∧
      b'.log = b.log ++ (qs ++ [.setWire Endpoint.control bits Control.sequencer]) := by
  obtain ⟨qs, hqs, hboard⟩ := h
  constructor
  · intro hrise
    rcases hboard with rfl | ⟨bits, hbits, rfl⟩
    · exact absurd hrise (not_risePending_replay hqs hb)
    · exact ⟨hrise.2, qs, bits, hbits, log_replay b _⟩
  · rintro ⟨hrunning, qs', bits, hbits, hlog⟩
    have hreplay : b' = b.replay (qs' ++ [.setWire Endpoint.control bits Control.sequencer]) := by
      rcases hboard with rfl | ⟨bits', _, rfl⟩
      · rw [log_replay, List.append_cancel_left_eq] at hlog
        rw [hlog]
      · rw [log_replay, List.append_cancel_left_eq] at hlog
        rw [hlog]
    refine ⟨?_, hrunning⟩
    rw [hreplay, replay_concat, willRun_setWire_control]
    exact hbits

/-! ## The sequencer -/

namespace Controller

/-- After quiet operations a start that fails has staged its run bits or not, and nothing more. -/
lemma launch_error {I : Controller → Prop} {x : Action Controller Unit}
    (hx : Keeps (OnState I) Primitive.Quiet x) {bits : Word} {running : RunState}
    {h h' : Held Controller} {e : Error} (hI : I h.state)
    (herror : (x >>= fun _ => setRun bits >>= fun _ => enter running) h = .error e h') :
    I h'.state ∧ ∃ qs : List Primitive, (∀ q ∈ qs, q.Quiet) ∧
      (h'.bus.board = h.bus.board.replay qs ∨
        h'.bus.board =
          h.bus.board.replay (qs ++ [.setWire Endpoint.control bits Control.sequencer])) := by
  obtain ⟨hI', qs, hqs, hboard⟩ := hx.held hI
  -- the start failed in `x`, in staging the run bits or in their commit
  cases hr : x h with
  | error e' k =>
    rw [after_of_error hr] at hI' hboard
    cases (bind_of_error hr _).symm.trans herror
    exact ⟨hI', qs, hqs, .inl hboard⟩
  | ok u k =>
    rw [after_of_ok hr] at hI' hboard
    rw [bind_of_ok hr, setRun, Wire.write, bind_assoc] at herror
    rcases error_of_bind herror with hset | ⟨u, k', hset, herror⟩
    · obtain ⟨hstate, hboard'⟩ := Action.issue_of_error hset
      rw [hstate, hboard']
      exact ⟨hI', qs, hqs, .inl hboard⟩
    · obtain ⟨hstate, hboard'⟩ := Action.issue_of_ok hset
      rcases error_of_bind herror with hcommit | ⟨u, k'', -, henter⟩
      · obtain ⟨hstate', hboard''⟩ := Action.issue_of_error hcommit
        rw [hstate', hstate, hboard'', hboard', hboard]
        exact ⟨hI', qs, hqs, .inr (Board.replay_concat _ qs _).symm⟩
      · cases henter

/-- What a start leaves that failed on the way to the board: the sequencer does not run. -/
structure StartFailed (h h' : Held Controller) : Prop where
  sound : h'.state.Sound RunState.Resting
  board : h.bus.board.StartAborted h'.bus.board

/-- A start is accepted only with a program in place, and every other answer needs no board. -/
lemma startFailed_of_error {x : Action Controller Unit} {bits : Word} {running : RunState}
    {h h' : Held Controller} {f : TransportFailure}
    (hx : Keeps (OnState (Sound RunState.Resting)) Primitive.Quiet x)
    (hbits : Control.has bits Control.run = true) (hsound : h.state.Sound fun _ => True)
    (herror : (prepareStart >>= fun _ => x >>= fun _ => setRun bits >>= fun _ => enter running) h =
      .error (.transport f) h') : StartFailed h h' := by
  have hresting : h.state.Sound RunState.Resting := by
    obtain ⟨⟨state, finished⟩, bus⟩ := h
    cases state with
    | programmed => exact ⟨rfl, hsound.finished⟩
    | _ => cases herror
  have hkeeps : Keeps (OnState (Sound RunState.Resting)) Primitive.Quiet
      (prepareStart >>= fun _ => x) :=
    .bind keeps_prepareStart fun _ => hx
  rw [← bind_assoc] at herror
  obtain ⟨hsound', qs, hqs, hboard⟩ := launch_error hkeeps hresting herror
  exact ⟨hsound', qs, hqs, hboard.imp_right fun hboard => ⟨bits, hbits, hboard⟩⟩

/-- A single run that fails to start leaves the run bits staged, or nothing. -/
lemma startSingle_failed {h h' : Held Controller} {f : TransportFailure}
    (hsound : h.state.Sound fun _ => True) (herror : startSingle h = .error (.transport f) h') :
    StartFailed h h' := by
  have hx : Keeps (OnState (Sound RunState.Resting)) Primitive.Quiet
      (Wire.trigger Pulse.resetCounter) := .trigger trivial
  exact startFailed_of_error hx rfl hsound herror

/-- A looped run that fails to start leaves the run bits staged, or nothing. -/
lemma startLooped_failed {repetitions : Word} {running : RunState} {h h' : Held Controller}
    {f : TransportFailure} (hsound : h.state.Sound fun _ => True)
    (herror : startLooped repetitions running h = .error (.transport f) h') : StartFailed h h' := by
  have hx : Keeps (OnState (Sound RunState.Resting)) Primitive.Quiet
      (Wire.write Endpoint.repetitions repetitions Word.all >>= fun _ =>
        Wire.trigger Pulse.resetCounter) :=
    .bind (.write (Primitive.quiet_of_address (by decide) _ _) trivial) fun _ => .trigger trivial
  have hlaunch : (prepareStart >>= fun _ =>
      (Wire.write Endpoint.repetitions repetitions Word.all >>= fun _ =>
        Wire.trigger Pulse.resetCounter) >>= fun _ =>
      setRun Control.startLooped >>= fun _ => enter running) h = .error (.transport f) h' := by
    simp only [bind_assoc]
    exact herror
  exact startFailed_of_error hx rfl hsound hlaunch

/-- A count that the board cannot take is refused without asking the board. -/
lemma ne_transport_of_checkRepetitions {count : Nat} {e : Error}
    (h : checkRepetitions count = .error e) (f : TransportFailure) : e ≠ .transport f := by
  unfold checkRepetitions at h
  split at h
  · cases h
  · cases h
    exact Error.noConfusion

/-- A counted run that fails to start leaves the run bits staged, or nothing. -/
lemma startCounted_failed {count : Nat} {h h' : Held Controller} {f : TransportFailure}
    (hsound : h.state.Sound fun _ => True)
    (herror : startCounted count h = .error (.transport f) h') : StartFailed h h' := by
  cases hcount : checkRepetitions count with
  | ok n =>
    simp only [startCounted, hcount] at herror
    exact startLooped_failed hsound herror
  | error e =>
    rw [startCounted, hcount] at herror
    cases herror
    exact absurd rfl (ne_transport_of_checkRepetitions hcount f)

end Controller

namespace Host

/-- An action of the sequencer does to the bus what it does as a part of the host. -/
lemma after_onController_bus {α : Type} (x : Action Controller α) (h : Held Host) :
    (after (onController x) h).bus = (after x ⟨h.state.controller, h.bus⟩).bus := by
  rw [onController, Action.after_focus]

end Host

/-! ## The instrument -/

namespace Instrument

/-- A transaction that fails on the way to the board leaves what its work leaves. -/
lemma transaction_of_error {α : Type} {work : Action Host α} {i i' : Instrument}
    {f : TransportFailure} (herror : transaction work i = .error (.transport f) i') :
    work i.link.held = .error (.transport f) i'.link.held ∧ i'.registry = i.registry :=
  (transaction_cases_of_error herror).resolve_left nofun

/-- What a start leaves that failed on the way to the board: the sequencer does not run. -/
structure StartFailed (i i' : Instrument) : Prop where
  obeys : Obeys (Host.Sound RunState.Resting) i'
  board : i.board.StartAborted i'.board

/-- A start that fails as a transaction leaves what the action of the sequencer leaves. -/
lemma startFailed_of_transaction {x : Action Controller Unit} {i i' : Instrument}
    {f : TransportFailure} (hi : Obeys (Host.Sound fun _ => True) i)
    (hx : ∀ h h' : Held Controller, h.state.Sound (fun _ => True) →
      x h = .error (.transport f) h' → Controller.StartFailed h h')
    (herror : transaction (Host.onController x) i = .error (.transport f) i') :
    StartFailed i i' := by
  obtain ⟨hwork, hregistry⟩ := transaction_of_error herror
  obtain ⟨k, hk, hheld⟩ := Action.error_of_focus hwork
  have hfailed := hx _ k hi.host.controller hk
  refine ⟨⟨?_, hregistry ▸ hi.index_lt⟩, ?_⟩
  · change Host.Sound RunState.Resting i'.link.held.state
    rw [hheld]
    exact ⟨hfailed.sound, hi.host.lines⟩
  · change i.board.StartAborted i'.link.held.bus.board
    rw [hheld]
    exact hfailed.board

/-- A start that fails on the way to the board leaves a sequencer that does not run. -/
lemma startFailed_of_error {c : Command} (hc : c.starts = true) {i i' : Instrument}
    {f : TransportFailure} (hi : Obeys (Host.Sound fun _ => True) i)
    (herror : c.work i = .error (.transport f) i') : StartFailed i i' := by
  cases c with
  | startSingle =>
    exact startFailed_of_transaction hi (fun _ _ => Controller.startSingle_failed) herror
  | startInfinite =>
    exact startFailed_of_transaction hi (fun _ _ => Controller.startLooped_failed) herror
  | startCounted count =>
    cases hcount : Controller.checkRepetitions count with
    | ok n =>
      simp only [Command.work, startCounted, hcount] at herror
      exact startFailed_of_transaction hi (fun _ _ => Controller.startCounted_failed) herror
    | error e =>
      simp only [Command.work, startCounted, hcount] at herror
      cases herror
      exact absurd rfl (Controller.ne_transport_of_checkRepetitions hcount f)
  | _ => cases hc

/-! ## Runs without a start -/

/-- Whatever happens without a start, the run bit does not rise. -/
def NeverStarts (i : Instrument) : Prop :=
  ∀ (events : List Event) (e : Event), (∀ e' ∈ events ++ [e], e'.starts = false) →
    ¬(i.run events).board.Raises ((i.run events).issued e)

/-- An event that starts nothing keeps the sequencer at rest and raises nothing, unless that was
pending. -/
lemma event_of_not_risePending {i : Instrument} (hi : Obeys (Host.Sound RunState.Resting) i)
    (hboard : ¬i.board.RisePending) {e : Event} (he : e.starts = false) :
    (Obeys (Host.Sound RunState.Resting) (e.apply i) ∧ ¬(e.apply i).board.RisePending) ∧
      ¬i.board.Raises (i.issued e) := by
  cases e with
  | command c =>
    have keeps : Keeps (Obeys (Host.Sound RunState.Resting)) Primitive.Quiet c.work :=
      Command.keeps_quiet (A := RunState.Resting) rfl (fun _ _ _ => rfl) (fun _ => rfl) he
        fun _ h => nomatch h
    obtain ⟨hi', ps, hps, hreplay⟩ := keeps i hi
    have hreplay : ((Event.command c).apply i).board = i.board.replay ps := hreplay
    rw [issued_of_replay hreplay, hreplay]
    exact ⟨⟨hi', Board.not_risePending_replay hps hboard⟩, Board.not_raises_of_quiet hps hboard⟩
  | bus b =>
    have hlog : ((Event.bus b).apply i).board.log = i.board.log := by cases b <;> rfl
    have hrise : ((Event.bus b).apply i).board.RisePending ↔ i.board.RisePending := by
      cases b <;> exact Iff.rfl
    refine ⟨⟨⟨hi.host, hi.index_lt⟩, hrise.not.mpr hboard⟩, ?_⟩
    rw [issued, hlog, List.drop_length]
    exact Board.not_raises_of_quiet (by simp) hboard

/-- From a sequencer at rest nothing but a start raises the run bit, unless that was pending. -/
lemma neverStarts_of_not_risePending {i : Instrument} (hi : Obeys (Host.Sound RunState.Resting) i)
    (hboard : ¬i.board.RisePending) : NeverStarts i := by
  intro events e hstarts
  have along : Obeys (Host.Sound RunState.Resting) (i.run events) ∧
      ¬(i.run events).board.RisePending := by
    have hevents : ∀ e' ∈ events, e'.starts = false := fun e' he' =>
      hstarts e' (List.mem_append_left [e] he')
    clear hstarts
    induction events using List.reverseRecOn with
    | nil => exact ⟨hi, hboard⟩
    | append_singleton events e' ih =>
      obtain ⟨hi', hboard'⟩ := ih fun d hd => hevents d (List.mem_append_left [e'] hd)
      rw [run_append]
      exact (event_of_not_risePending hi' hboard' (hevents e' (by simp))).1
  exact (event_of_not_risePending along.1 along.2 (hstarts e (by simp))).2

/-- A readout stages and commits its quantity, and goes on from what it reads. -/
lemma readout_bind {σ α : Type} (select : Readout) (f : Word → Action σ α) :
    Wire.readout select >>= f = Action.issueAll
      [.setWire Endpoint.control select.code Control.readout, .commit] >>= fun _ =>
        Wire.read Endpoint.readout >>= f := by
  simp only [Action.issueAll_cons_bind, Action.issueAll_nil_bind, Wire.readout, Wire.write,
    bind_assoc]
  rfl

/-- To look at the done flag is to stage its selector and to commit. -/
lemma pollDone_commits {h : Held Host} (hpresent : h.bus.board.present = true)
    (hfault : h.bus.fault = none) :
    ∃ qs, (after (Host.onController Controller.pollDone) h).bus.board =
      h.bus.board.replay
        ([.setWire Endpoint.control Readout.done.code Control.readout] ++ .commit :: qs) := by
  rw [Host.after_onController_bus, Controller.pollDone, readout_bind]
  refine Action.after_issueAll_bind (I := fun _ => True) (S := fun _ => True) ?_ trivial hpresent
    hfault
  refine .bind (.read trivial trivial) fun word => .ite (fun _ => ?_) fun _ => .pure _
  exact .bind (.change fun _ _ => trivial) fun _ => .pure _

/-- To connect is to stage the words of the lines and to commit. -/
lemma initialise_commits {h : Held Host} (hsound : h.state.Sound fun _ => True)
    (hpresent : h.bus.board.present = true) (hfault : h.bus.fault = none) :
    ∃ (r : LineRegister) (qs : List Primitive), (after Host.initialise h).bus.board =
      h.bus.board.replay
        ([.setWire Endpoint.manual r.manual Word.all, .setWire Endpoint.level r.level Word.all] ++
          .commit :: qs) := by
  obtain ⟨r, hr⟩ := LineTable.exists_register hsound.lines
  have hinitialise : Host.initialise h = (Action.issueAll
      [.setWire Endpoint.manual r.manual Word.all, .setWire Endpoint.level r.level Word.all,
        .commit] >>= fun _ => do
      Host.onCounting Counting.apply
      Host.onCounting Counting.resetFifo
      Wire.trigger Pulse.resetDds
      Action.change ({ · with controller := .idle })) h := by
    simp only [Action.issueAll_cons_bind, Action.issueAll_nil_bind]
    rw [Host.initialise, Action.state_bind, hr]
    rfl
  rw [after, hinitialise, ← after]
  -- what follows the commit adds operations, whichever of them fail
  refine ⟨r, Action.after_issueAll_bind (I := Host.Sound fun _ => True) (S := Primitive.Quiet) ?_
    hsound hpresent hfault⟩
  refine .bind (Host.keeps_onCounting Counting.keeps_apply) fun _ => ?_
  refine .bind (Host.keeps_onCounting Counting.keeps_resetFifo) fun _ => ?_
  refine .bind (.trigger trivial) fun _ => ?_
  exact .change fun _ h => ⟨Controller.sound_of_state trivial, h.lines⟩

/-- A look at the done flag raises the run bit if that is pending. -/
lemma raises_pollDone {i : Instrument} (hboard : i.board.RisePending)
    (hpresent : i.board.present = true) (hfault : i.link.held.bus.fault = none)
    (hattached : i.link.attached = true) : i.board.Raises (i.issued (.command .pollDone)) := by
  obtain ⟨qs, hpoll⟩ := pollDone_commits hpresent hfault
  have hheld : ((Event.command .pollDone).apply i).link.held =
      after (Host.onController Controller.pollDone) i.link.held :=
    (congrArg (fun i : Instrument => i.link.held) (after_discard pollDone i)).trans
      (after_transaction_of_attached _ hattached).1
  rw [issued_of_replay ((congrArg (fun h => h.bus.board) hheld).trans hpoll)]
  refine Board.raises_of_risePending hboard fun p hp => ?_
  cases List.mem_singleton.mp hp
  exact ⟨Primitive.noConfusion, fun b => b.willRun_setWire_control _ _⟩

/-- An attempt to connect raises the run bit if that is pending. -/
lemma raises_connect {i : Instrument} (hi : i.host.Sound fun _ => True)
    (hboard : i.board.RisePending) (hpresent : i.board.present = true)
    (hfault : i.link.held.bus.fault = none) (hattached : ¬i.link.attached = true) :
    i.board.Raises (i.issued (.command .connect)) := by
  obtain ⟨r, qs, hinitialise⟩ := initialise_commits hi hpresent hfault
  have hheld : ((Event.command .connect).apply i).link.held = after Host.initialise i.link.held :=
    after_connect_of_present hattached hpresent
  rw [issued_of_replay ((congrArg (fun h => h.bus.board) hheld).trans hinitialise)]
  refine Board.raises_of_risePending hboard fun p hp => ?_
  rcases List.mem_cons.mp hp with rfl | hp
  · exact ⟨Primitive.noConfusion, fun b => b.willRun_setWire_of_ne (by decide) _ _⟩
  · cases List.mem_singleton.mp hp
    exact ⟨Primitive.noConfusion, fun b => b.willRun_setWire_of_ne (by decide) _ _⟩

/-- If the next commit raises the run bit, then something that is no start does so: a look at the
done flag, or an attempt to connect if the board is detached. -/
lemma not_neverStarts_of_risePending {i : Instrument} (hi : Obeys (Host.Sound fun _ => True) i)
    (hboard : i.board.RisePending) : ¬NeverStarts i := by
  intro hnever
  -- with the board in its slot and no fault in wait the next commit comes about
  let i' := i.run [.bus (.expect none), .bus .plug]
  have hboard' : i'.board.RisePending := hboard
  by_cases hattached : i'.link.attached = true
  · exact hnever [.bus (.expect none), .bus .plug] (.command .pollDone) (by decide)
      (raises_pollDone hboard' rfl rfl hattached)
  · exact hnever [.bus (.expect none), .bus .plug] (.command .connect) (by decide)
      (raises_connect hi.host hboard' rfl rfl hattached)

/-- After a start that failed on the way to the board nothing but another start raises the run bit,
unless the next commit does. From a board on which that is not pending, a failed start makes it so
exactly if its last operation on the board staged the run bits over a low run bit: it is the commit
that failed. -/
theorem failed_start_never_starts_iff {i i' : Instrument} {c : Command} {f : TransportFailure}
    (hi : Reachable i) (hc : c.starts = true) (herror : c.work i = .error (.transport f) i') :
    (NeverStarts i' ↔ ¬i'.board.RisePending) ∧
      (¬i.board.RisePending →
        (i'.board.RisePending ↔ i'.board.running = false ∧
          ∃ qs bits, Control.has bits Control.run = true ∧ i'.board.log =
            i.board.log ++ (qs ++ [.setWire Endpoint.control bits Control.sequencer]))) := by
  have hfailed := startFailed_of_error hc hi.sound herror
  refine ⟨⟨fun hnever hrise => ?_, neverStarts_of_not_risePending hfailed.obeys⟩,
    hfailed.board.risePending_iff⟩
  have hsound : Obeys (Host.Sound fun _ => True) i' :=
    after_of_error herror ▸ (c.keeps i hi.sound).1
  exact not_neverStarts_of_risePending hsound hrise hnever

/-! ## Two starts that fail -/

/-- A configuration without channels. -/
def bareConfiguration : Configuration := { Configuration.default with channels := [], dds := [] }

/-- Its instrument, before the first attempt to connect. -/
def unconnected : Instrument where
  link := .detached "board" (initialHost bareConfiguration ⟨[], []⟩) (.new .new)
  registry := ⟨[], []⟩
  config := bareConfiguration
  listeners := .empty

set_option maxRecDepth 20000 in
/-- The instrument is opened with an attempt to connect. -/
lemma opened_unconnected :
    opened bareConfiguration "board" (.new .new) = .ok (after connect unconnected) := by
  have hvalid : bareConfiguration.validate = .ok () := rfl
  have hregistry : Registry.ofConfiguration bareConfiguration = .ok ⟨[], []⟩ := by
    rw [Registry.ofConfiguration, hvalid]
    change Except.ok (Registry.mk (List.mergeSort [] _) []) = _
    rw [List.mergeSort_nil]
  rw [opened, hregistry]
  rfl

/-- The instrument with a program in place, and a fault that lets `passed` operations pass. -/
def programmedWith (passed : Nat) : Instrument :=
  (after connect unconnected).run
    [.command (.program ⟨[0, 0x10, 10, 0, 0, 0, 0], 10⟩),
      .bus (.expect (some ⟨passed, .reported (.failed "primitive" "link")⟩))]

/-- The instrument with a program in place and a fault in wait can be reached. -/
lemma reachable_programmedWith (passed : Nat) : Reachable (programmedWith passed) :=
  Reachable.run (.opened opened_unconnected) _

set_option maxRecDepth 20000 in
/-- A start that could not stage its run bits is over. -/
theorem unstaged_start_never_starts :
    Reachable (programmedWith 1) ∧ Command.startSingle.starts = true ∧
      Command.startSingle.work (programmedWith 1) = .error (.transport (.failed "primitive" "link"))
        (after startSingle (programmedWith 1)) ∧
      NeverStarts (after startSingle (programmedWith 1)) := by
  have herror : Command.startSingle.work (programmedWith 1) =
      .error (.transport (.failed "primitive" "link")) (after startSingle (programmedWith 1)) := rfl
  refine ⟨reachable_programmedWith 1, rfl, herror, ?_⟩
  refine (failed_start_never_starts_iff (reachable_programmedWith 1) rfl herror).1.mpr ?_
  intro hrise
  have hwill : (after startSingle (programmedWith 1)).board.willRun = false := by decide +kernel
  exact Bool.false_ne_true (hwill.symm.trans hrise.1)

set_option maxRecDepth 20000 in
/-- A start whose last commit failed starts the sequencer when the done flag is looked at. -/
theorem start_after_failed_commit :
    ∃ i i' f, Reachable i ∧ Command.startSingle.work i = .error (.transport f) i' ∧
      ¬NeverStarts i' := by
  have herror : Command.startSingle.work (programmedWith 2) =
      .error (.transport (.failed "primitive" "link")) (after startSingle (programmedWith 2)) := rfl
  refine ⟨_, _, _, reachable_programmedWith 2, herror, fun hnever => ?_⟩
  refine hnever [] (.command .pollDone) (by decide) ?_
  exact raises_pollDone ⟨by decide +kernel, by decide +kernel⟩ (by decide +kernel)
    (by decide +kernel) (by decide +kernel)

end Instrument

end PulseSequencer
