import PulseSequencer.Proofs.Instrument.Run
import PulseSequencer.Proofs.Board.RunBit
import PulseSequencer.Proofs.Configuration
import PulseSequencer.Proofs.Link

/-!
# What every state of an instrument has in common

A run that finished leaves run bits that end it, and every line that the host knows of is a line of
the board. Commands other than a start stage no run bit, and neither do they let the sequencer run
when it does not.

* `Controller.Sound`, `Host.Sound`: the invariants, with a condition on the state of the sequencer.
* `Instrument.Obeys`: an invariant of the host, and lines of the registry that the board has.
* `Instrument.Command.keeps_quiet`, `Instrument.Command.keeps`: what the commands keep.
* `Instrument.Reachable.sound`: the invariants hold in every state.
-/

namespace PulseSequencer

/-- The state of the sequencer is one of `A`, and what a finished run left ends it. -/
structure Controller.Sound (A : RunState → Prop) (c : Controller) : Prop where
  state : A c.state
  finished : ∀ bits, c.finished = some bits → Control.has bits Control.run = false

/-- The sequencer is sound, and the lines are lines of the board. -/
structure Host.Sound (A : RunState → Prop) (h : Host) : Prop where
  controller : h.controller.Sound A
  lines : ∀ index s, h.lines index = some s → index.toNat < lineLimit

variable {A : RunState → Prop} {S : Primitive → Prop}

/-! ## The sequencer -/

namespace Controller

/-- Nothing is left of a run that could go on. -/
lemma sound_of_state {state : RunState} (h : A state) : Sound A ⟨state, none⟩ :=
  ⟨h, fun _ hnone => absurd hnone (Option.some_ne_none _).symm⟩

/-- The bits of a stop end the run. -/
lemma has_run_of_stopBits {c : Controller} (hc : c.Sound A) {bits : Word}
    (h : c.stopBits = .ok bits) : Control.has bits Control.run = false := by
  obtain ⟨state, finished⟩ := c
  cases state with
  | idle => cases h
  | programmed =>
    cases finished with
    | none => cases h
    | some stop =>
      cases h
      exact hc.finished _ rfl
  | runningSingle =>
    cases h
    rfl
  | runningInfinite =>
    cases h
    rfl
  | runningCounted n =>
    cases h
    rfl

/-- Run bits that do not start the sequencer are written quietly. -/
lemma keeps_setRun {bits : Word} (h : Control.has bits Control.run = false) :
    Keeps (OnState (Sound A)) Primitive.Quiet (setRun bits) :=
  .write (fun _ _ => h) trivial

/-- A state that is allowed may be entered. -/
lemma keeps_enter {state : RunState} (h : A state) : Keeps (OnState (Sound A)) S (enter state) :=
  .change fun _ hc => ⟨h, hc.finished⟩

/-- To forget a finished run is quiet. -/
lemma keeps_clearFinished : Keeps (OnState (Sound A)) Primitive.Quiet clearFinished := by
  refine .state_bind fun c hc => ?_
  cases hfinished : c.finished with
  | none => exact .pure ()
  | some stop =>
    refine .bind (keeps_setRun (hc.finished stop hfinished)) fun _ => .change fun c hc => ?_
    exact sound_of_state hc.state

/-- To prepare a start is quiet. -/
lemma keeps_prepareStart : Keeps (OnState (Sound A)) Primitive.Quiet prepareStart :=
  .state_bind fun _ _ => .ofExcept_bind fun _ _ => keeps_clearFinished

/-- An upload is quiet, and leads to a program that may be run. -/
lemma keeps_program (hprogrammed : A .programmed) (p : Program) :
    Keeps (OnState (Sound A)) Primitive.Quiet (program p) := by
  refine .state_bind fun c _ => .ite (fun _ => .throw_bind) fun _ => ?_
  refine .bind (.trigger trivial) fun _ => .bind (.writePipe trivial) fun _ => ?_
  exact .bind (.trigger trivial) fun _ => keeps_enter hprogrammed

/-- A stop is quiet, and leads to an idle sequencer. -/
lemma keeps_stop (hidle : A .idle) : Keeps (OnState (Sound A)) Primitive.Quiet stop := by
  refine .state_bind fun c hc => .ofExcept_bind fun bits hbits => ?_
  refine .bind (.trigger trivial) fun _ => ?_
  refine .bind (keeps_setRun (has_run_of_stopBits hc hbits)) fun _ => ?_
  exact .bind (.trigger trivial) fun _ => .change fun _ _ => sound_of_state hidle

/-- A sequencer that does not run cannot be asked to finish its cycle. -/
lemma keeps_complete (hinfinite : ¬A .runningInfinite) :
    Keeps (OnState (Sound A)) Primitive.Quiet complete := by
  refine .state_bind fun c hc => .ite (fun _ => .throw_bind) fun hstate => ?_
  exact absurd (Decidable.not_not.mp hstate ▸ hc.state) hinfinite

/-- What a run that finished leaves ends it. -/
lemma Sound.finish {c : Controller} (hfinish : ∀ s, A s → s.isRunning = true → A .programmed)
    (hc : c.Sound A) : c.finish.Sound A := by
  obtain ⟨state, finished⟩ := c
  cases state with
  | runningSingle => exact ⟨hfinish _ hc.state rfl, fun bits h => by cases h; rfl⟩
  | runningCounted n => exact ⟨hfinish _ hc.state rfl, fun bits h => by cases h; rfl⟩
  | _ => exact hc

/-- A readout is quiet. -/
lemma keeps_readout {σ : Type} {I : σ → Prop} (select : Readout) :
    Keeps (OnState I) Primitive.Quiet (Wire.readout select) :=
  .readout (fun _ h => nomatch h) trivial trivial trivial

/-- A poll is quiet, and ends a run that is over. -/
lemma keeps_pollDone (hfinish : ∀ s, A s → s.isRunning = true → A .programmed) :
    Keeps (OnState (Sound A)) Primitive.Quiet pollDone := by
  refine .bind (keeps_readout .done) fun word => .ite (fun _ => ?_) fun _ => .pure _
  exact .bind (.change fun _ => Sound.finish hfinish) fun _ => .pure _

/-- A question for the repetitions is quiet. -/
lemma keeps_repetitions : Keeps (OnState (Sound A)) Primitive.Quiet repetitions := by
  refine .state_bind fun c _ => ?_
  cases c.state with
  | runningInfinite => exact keeps_readout _
  | runningCounted n => exact keeps_readout _
  | _ => exact .throw _

/-- The start of a single run keeps the sequencer sound. -/
lemma keeps_startSingle : Keeps (OnState (Sound fun _ => True)) (fun _ => True) startSingle := by
  refine .bind (keeps_prepareStart.mono fun _ _ => trivial) fun _ => ?_
  refine .bind (.trigger trivial) fun _ => ?_
  exact .bind (.write trivial trivial) fun _ => keeps_enter trivial

/-- The start of a looped run keeps the sequencer sound. -/
lemma keeps_startLooped (repetitions : Word) (running : RunState) :
    Keeps (OnState (Sound fun _ => True)) (fun _ => True) (startLooped repetitions running) := by
  refine .bind (keeps_prepareStart.mono fun _ _ => trivial) fun _ => ?_
  refine .bind (.write trivial trivial) fun _ => .bind (.trigger trivial) fun _ => ?_
  exact .bind (.write trivial trivial) fun _ => keeps_enter trivial

end Controller

/-! ## Counting -/

namespace Counting

variable {I : Counting → Prop}

/-- To tell the board of the counting setup is quiet. -/
lemma keeps_apply : Keeps (OnState I) Primitive.Quiet apply := by
  refine .state_bind fun c _ => .bind (.set (fun _ h => nomatch h)) fun _ => ?_
  exact .bind (.set (Primitive.quiet_of_address (by decide) _ _)) fun _ => .commit trivial

/-- To empty the pipe of counts is quiet. -/
lemma keeps_resetFifo : Keeps (OnState I) Primitive.Quiet resetFifo := .trigger trivial

/-- A change of the mode is quiet. -/
lemma keeps_setMode (mode : CollectionMode) :
    Keeps (OnState fun _ => True) Primitive.Quiet (setMode mode) :=
  .bind (.change fun _ _ => trivial) fun _ => .bind keeps_apply fun _ => keeps_resetFifo

/-- A change of the collection time in normal mode is quiet. -/
lemma keeps_setNormalTime (seconds : Float) :
    Keeps (OnState fun _ => True) Primitive.Quiet (setNormalTime seconds) := by
  refine .state_bind fun c _ => .ofExcept_bind fun c' _ => ?_
  refine .bind (.change fun _ _ => trivial) fun _ => .bind keeps_resetFifo fun _ => ?_
  exact .write (Primitive.quiet_of_address (by decide) _ _) trivial

/-- A reading of the counts is quiet. -/
lemma keeps_drain (readTime : Float) : Keeps (OnState I) Primitive.Quiet (drain readTime) := by
  refine .bind (.bind (Controller.keeps_readout _) fun words => .ite (fun _ => .pure _) fun _ => ?_)
    fun records => .state_bind fun c _ => .pure _
  exact .bind (.readPipe trivial) fun _ => .pure _

end Counting

/-! ## The host -/

namespace Host

/-- What keeps the sequencer sound keeps the host sound. -/
lemma keeps_onController {α : Type} {x : Action Controller α}
    (hx : Keeps (OnState (Controller.Sound A)) S x) :
    Keeps (OnState (Sound A)) S (onController x) :=
  hx.focus (fun _ h => h.controller) fun _ _ h hc => ⟨hc, h.lines⟩

/-- Whatever the counters do, the host stays sound. -/
lemma keeps_onCounting {α : Type} {x : Action Counting α} (hx : Keeps (OnState fun _ => True) S x) :
    Keeps (OnState (Sound A)) S (onCounting x) :=
  hx.focus (fun _ _ => trivial) fun _ _ h _ => ⟨h.controller, h.lines⟩

/-- The initialisation is quiet, and leads to an idle sequencer. -/
lemma keeps_initialise (hidle : A .idle) :
    Keeps (OnState (Sound A)) Primitive.Quiet initialise := by
  refine .state_bind fun h _ => .ofExcept_bind fun register _ => ?_
  refine .bind (.set (Primitive.quiet_of_address (by decide) _ _)) fun _ => ?_
  refine .bind (.set (Primitive.quiet_of_address (by decide) _ _)) fun _ => ?_
  refine .bind (.commit trivial) fun _ => ?_
  refine .bind (keeps_onCounting Counting.keeps_apply) fun _ => ?_
  refine .bind (keeps_onCounting Counting.keeps_resetFifo) fun _ => ?_
  refine .bind (.trigger trivial) fun _ => ?_
  exact .change fun _ h => ⟨Controller.sound_of_state hidle, h.lines⟩

/-- The switch of a line of the board is quiet. -/
lemma keeps_switchLine {index : UInt8} (hindex : index.toNat < lineLimit)
    (update : LineState → LineState) :
    Keeps (OnState (Sound A)) Primitive.Quiet (switchLine index update) := by
  refine .state_bind fun h _ => .bind (.ite (fun _ => .throw_bind) fun _ => ?_) fun _ => ?_
  · refine .bind (.set (Primitive.quiet_of_address (by decide) _ _)) fun _ => ?_
    exact .bind (.set (Primitive.quiet_of_address (by decide) _ _)) fun _ => .commit trivial
  · refine .bind (.change fun h hh => ⟨hh.controller, fun other s hs => ?_⟩) fun _ => .pure _
    by_cases hother : other = index
    · rw [hother]
      exact hindex
    · exact hh.lines other s ((if_neg hother).symm.trans hs)

/-- A reading of the time tags is quiet. -/
lemma keeps_drainTimetags : Keeps (OnState (Sound A)) Primitive.Quiet drainTimetags := by
  refine .bind (.read trivial trivial) fun words => .ite (fun _ => .pure _) fun _ => ?_
  exact .bind (.readPipe trivial) fun _ => .pure _

end Host

/-! ## The instrument -/

namespace Instrument

variable {I : Host → Prop} {α β : Type}

/-- The host's state has `I`, and the names of the registry stand for lines of the board. -/
structure Obeys (I : Host → Prop) (i : Instrument) : Prop where
  host : I i.host
  index_lt : ∀ name index, i.registry.hardwareIndex name = .ok index → index.toNat < lineLimit

/-- To read the state of an instrument keeps everything. -/
lemma keeps_get_bind {f : Instrument → Operation β}
    (hf : ∀ i, Obeys I i → Keeps (Obeys I) S (f i)) : Keeps (Obeys I) S (get >>= f) :=
  fun i hi => hf i hi i hi

/-- A value that is there, and what follows with it on an instrument. -/
lemma keeps_ofExcept_bind {r : Except Error α} {f : α → Operation β}
    (hf : ∀ a, r = .ok a → Keeps (Obeys I) S (f a)) : Keeps (Obeys I) S (ofExcept r >>= f) := by
  cases r with
  | error e => exact .of_after_eq fun _ _ => rfl
  | ok a => exact hf a rfl

/-- A change that leaves the host's state and the registry alone, and the board. -/
lemma keeps_modify {f : Instrument → Instrument}
    (hf : ∀ i, (f i).link.held = i.link.held ∧ (f i).registry = i.registry) :
    Keeps (Obeys I) S (modify f) := by
  refine .of_board_eq fun i hi => ⟨⟨?_, ?_⟩, congrArg (fun h => h.bus.board) (hf i).1⟩
  · change I (f i).link.held.state
    rw [(hf i).1]
    exact hi.host
  · change ∀ name index, (f i).registry.hardwareIndex name = .ok index → _
    rw [(hf i).2]
    exact hi.index_lt

/-- An operation of the link leaves what it leaves of the link. -/
lemma after_onLink (x : Link.Operation Host α) (i : Instrument) :
    after (onLink x) i = { i with link := after x i.link } := by
  simp only [after, onLink]
  cases x i.link <;> rfl

/-- An operation that succeeds does so on the link. -/
lemma ok_of_onLink {x : Link.Operation Host α} {i i' : Instrument} {a : α}
    (hok : onLink x i = .ok a i') : ∃ link, x i.link = .ok a link ∧ i' = { i with link } := by
  unfold onLink at hok
  split at hok
  case h_1 hx =>
    cases hok
    exact ⟨_, hx, rfl⟩
  case h_2 => cases hok

/-- An operation that fails does so on the link. -/
lemma error_of_onLink {x : Link.Operation Host α} {i i' : Instrument} {e : Error}
    (herror : onLink x i = .error e i') :
    ∃ link, x i.link = .error e link ∧ i' = { i with link } := by
  unfold onLink at herror
  split at herror
  case h_1 => cases herror
  case h_2 hx =>
    cases herror
    exact ⟨_, hx, rfl⟩

/-- On an attached board a transaction leaves what its work leaves. -/
lemma after_transaction_of_attached (work : Action Host α) {i : Instrument}
    (h : i.link.attached = true) :
    (after (transaction work) i).link.held = after work i.link.held ∧
      (after (transaction work) i).registry = i.registry := by
  simp only [after, transaction, onLink, Link.transaction, if_pos h]
  cases work i.link.held <;> exact ⟨rfl, rfl⟩

/-- On a detached board a transaction is refused. -/
lemma transaction_of_detached (work : Action Host α) {i : Instrument}
    (h : ¬i.link.attached = true) : transaction work i = .error .deviceNotConnected i := by
  simp only [transaction, onLink, Link.transaction, if_neg h]

/-- A transaction fails if no board is attached, or if its work does. -/
lemma transaction_cases_of_error {work : Action Host α} {i i' : Instrument} {e : Error}
    (herror : transaction work i = .error e i') :
    e = .deviceNotConnected ∧ i' = i ∨
      work i.link.held = .error e i'.link.held ∧ i'.registry = i.registry := by
  obtain ⟨link, hlink, rfl⟩ := error_of_onLink herror
  rcases Link.transaction_cases_of_error hlink with ⟨-, he, rfl⟩ | ⟨held, hwork, rfl⟩
  · exact .inl ⟨he, rfl⟩
  · exact .inr ⟨hwork, rfl⟩

/-- A transaction keeps what its work keeps. -/
lemma keeps_transaction {work : Action Host α} (hw : Keeps (OnState I) S work) :
    Keeps (Obeys I) S (transaction work) := by
  intro i hi
  by_cases h : i.link.attached = true
  · obtain ⟨hheld, hregistry⟩ := after_transaction_of_attached work h
    obtain ⟨hI, ps, hps, hboard⟩ := hw.held (h := i.link.held) hi.host
    refine ⟨⟨?_, hregistry ▸ hi.index_lt⟩, ps, hps, ?_⟩
    · rw [host, Link.state, hheld]
      exact hI
    · exact (congrArg (fun h => h.bus.board) hheld).trans hboard
  · rw [after_of_error (transaction_of_detached work h)]
    exact ⟨hi, [], by simp, rfl⟩

/-- On a board in its slot an attempt to connect leaves what the initialisation leaves. -/
lemma after_connect_of_present {i : Instrument} (hattached : ¬i.link.attached = true)
    (hpresent : i.link.held.bus.board.present = true) :
    (after connect i).link.held = after Host.initialise i.link.held := by
  simp only [after, connect, onLink, Link.connect, if_neg hattached, if_pos hpresent]
  cases Host.initialise i.link.held <;> rfl

/-- An attempt to connect leaves what the initialisation leaves, or what was there before. -/
lemma after_connect (i : Instrument) :
    ((after connect i).link.held = i.link.held ∨
        (after connect i).link.held = after Host.initialise i.link.held) ∧
      (after connect i).registry = i.registry := by
  have hregistry : (after connect i).registry = i.registry := by rw [connect, after_onLink]
  by_cases hattached : i.link.attached = true
  · refine ⟨.inl ?_, hregistry⟩
    simp only [after, connect, onLink, Link.connect, if_pos hattached]
  · by_cases hpresent : i.link.held.bus.board.present = true
    · exact ⟨.inr (after_connect_of_present hattached hpresent), hregistry⟩
    · refine ⟨.inl ?_, hregistry⟩
      simp only [after, connect, onLink, Link.connect, if_neg hattached, if_neg hpresent]

/-- An attempt to connect keeps what the initialisation keeps. -/
lemma keeps_connect (hw : Keeps (OnState I) S Host.initialise) : Keeps (Obeys I) S connect := by
  intro i hi
  obtain ⟨hheld, hregistry⟩ := after_connect i
  rcases hheld with hheld | hheld
  · refine ⟨⟨?_, hregistry ▸ hi.index_lt⟩, [], by simp, ?_⟩
    · rw [host, Link.state, hheld]
      exact hi.host
    · exact congrArg (fun h => h.bus.board) hheld
  · obtain ⟨hI, ps, hps, hboard⟩ := hw.held (h := i.link.held) hi.host
    refine ⟨⟨?_, hregistry ▸ hi.index_lt⟩, ps, hps, ?_⟩
    · rw [host, Link.state, hheld]
      exact hI
    · exact (congrArg (fun h => h.bus.board) hheld).trans hboard

/-- A change of the host's state keeps what it keeps of the state. -/
lemma keeps_withState {f : Host → α × Host} (hf : ∀ h, I h → I (f h).2) :
    Keeps (Obeys I) S (onLink (Link.withState f)) :=
  .of_board_eq fun i hi => ⟨⟨hf i.host hi.host, hi.index_lt⟩, rfl⟩

/-! ## The commands -/

/-- To keep a collection time keeps the host sound. -/
lemma keeps_storeTime (seconds : Float) (mode : CollectionMode) :
    Keeps (Obeys (Host.Sound A)) S (storeTime seconds mode) := by
  refine keeps_get_bind fun i _ => keeps_ofExcept_bind fun counting _ => ?_
  exact keeps_withState fun h hh => ⟨hh.controller, hh.lines⟩

/-- A change of the collection time is quiet. -/
lemma keeps_setCollectionTime (seconds : Float) (mode : CollectionMode) :
    Keeps (Obeys (Host.Sound A)) Primitive.Quiet (setCollectionTime seconds mode) := by
  refine keeps_get_bind fun i _ => keeps_ofExcept_bind fun _ _ => ?_
  cases mode with
  | normal => exact keeps_transaction (Host.keeps_onCounting (Counting.keeps_setNormalTime seconds))
  | differential => exact keeps_storeTime seconds .differential

/-- A switch of a channel is quiet. -/
lemma keeps_switchLine (channel : String) (update : LineState → LineState) :
    Keeps (Obeys (Host.Sound A)) Primitive.Quiet (switchLine channel update) := by
  refine keeps_get_bind fun i hi => keeps_ofExcept_bind fun index hindex => ?_
  exact keeps_transaction (Host.keeps_switchLine (hi.index_lt channel index hindex) update)

/-- A notice does not reach host or board. -/
lemma keeps_notify (origin : Option SessionId) (channel : String) (event : SwitchEvent) :
    Keeps (Obeys I) S (notify origin channel event) :=
  keeps_modify fun _ => ⟨rfl, rfl⟩

/-- A command that starts nothing stages no run bit, and lets nothing run that did not. -/
lemma Command.keeps_quiet (hidle : A .idle)
    (hfinish : ∀ s, A s → s.isRunning = true → A .programmed) {c : Command}
    (huploads : c.uploads = true → A .programmed) (hstarts : c.starts = false)
    (hcomplete : c = .complete → ¬A .runningInfinite) :
    Keeps (Obeys (Host.Sound A)) Primitive.Quiet c.work := by
  have program (hprogrammed : A .programmed) (p : Program) :
      Keeps (Obeys (Host.Sound A)) Primitive.Quiet (Instrument.program p) :=
    keeps_transaction (Host.keeps_onController (Controller.keeps_program hprogrammed p))
  cases c with
  | connect => exact keeps_connect (Host.keeps_initialise hidle)
  | disconnect => exact keeps_modify fun _ => ⟨rfl, rfl⟩
  | program p => exact program (huploads rfl) p
  | programSequence s => exact keeps_ofExcept_bind fun p _ => program (huploads rfl) p
  | startSingle => cases hstarts
  | startInfinite => cases hstarts
  | startCounted count => cases hstarts
  | complete =>
    exact keeps_transaction (Host.keeps_onController (Controller.keeps_complete (hcomplete rfl)))
  | stop => exact keeps_transaction (Host.keeps_onController (Controller.keeps_stop hidle))
  | repetitions =>
    exact .bind (keeps_transaction (Host.keeps_onController Controller.keeps_repetitions))
      fun _ => .pure ()
  | pollDone =>
    refine .bind (keeps_transaction (Host.keeps_onController ?_)) fun _ => .pure ()
    exact Controller.keeps_pollDone hfinish
  | counts readTime =>
    exact .bind (keeps_transaction (Host.keeps_onCounting (Counting.keeps_drain readTime)))
      fun _ => .pure ()
  | resetCounts => exact keeps_transaction (Host.keeps_onCounting Counting.keeps_resetFifo)
  | setMode mode => exact keeps_transaction (Host.keeps_onCounting (Counting.keeps_setMode mode))
  | setCollectionTime seconds mode => exact keeps_setCollectionTime seconds mode
  | timetags => exact .bind (keeps_transaction Host.keeps_drainTimetags) fun _ => .pure ()
  | resetTimetags => exact keeps_transaction (.trigger trivial)
  | switchManual origin channel level =>
    exact .bind (keeps_switchLine channel _) fun _ => keeps_notify _ _ _
  | switchAuto origin channel inverted =>
    exact .bind (keeps_switchLine channel _) fun _ => keeps_notify _ _ _
  | openSession =>
    exact .of_board_eq fun _ hi => ⟨⟨hi.host, hi.index_lt⟩, rfl⟩
  | closeSession id => exact keeps_modify fun _ => ⟨rfl, rfl⟩
  | takeNotice id => exact .of_board_eq fun _ hi => ⟨⟨hi.host, hi.index_lt⟩, rfl⟩
  | takeNotices id => exact .of_board_eq fun _ hi => ⟨⟨hi.host, hi.index_lt⟩, rfl⟩

/-- Every command keeps the invariants. -/
lemma Command.keeps (c : Command) :
    Keeps (Obeys (Host.Sound fun _ => True)) (fun _ => True) c.work := by
  cases c with
  | startSingle => exact keeps_transaction (Host.keeps_onController Controller.keeps_startSingle)
  | startInfinite =>
    exact keeps_transaction (Host.keeps_onController (Controller.keeps_startLooped _ _))
  | startCounted count =>
    refine keeps_ofExcept_bind fun _ _ => keeps_transaction (Host.keeps_onController ?_)
    exact .ofExcept_bind fun _ _ => Controller.keeps_startLooped _ _
  | complete =>
    refine keeps_transaction (Host.keeps_onController ?_)
    refine .state_bind fun _ _ => .ite (fun _ => .throw_bind) fun _ => ?_
    exact .bind (.write trivial trivial) fun _ => Controller.keeps_enter trivial
  | _ =>
    refine .mono (fun _ _ => trivial) (Command.keeps_quiet trivial ?_ ?_ rfl (by simp))
    · exact fun _ _ _ => trivial
    · exact fun _ => trivial

/-! ## Reachable states -/

/-- The power-on state of the lines is about lines of the registry. -/
lemma index_of_initialLines {registry : Registry} {index : UInt8} {s : LineState}
    (h : initialLines registry index = some s) : ∃ c ∈ registry.channels, c.index = index := by
  have stored (channels : List Channel) (t : LineTable)
      (h : channels.foldl (fun t c => t.insert c.index c.initial) t index = some s) :
      t index = some s ∨ ∃ c ∈ channels, c.index = index := by
    induction channels generalizing t with
    | nil => exact .inl h
    | cons c rest ih =>
      rcases ih _ h with h | ⟨c', hc', hindex⟩
      · by_cases hindex : index = c.index
        · exact .inr ⟨c, List.mem_cons_self, hindex.symm⟩
        · exact .inl ((if_neg hindex).symm.trans h)
      · exact .inr ⟨c', List.mem_cons_of_mem c hc', hindex⟩
  rcases stored registry.channels .empty h with h | h
  · cases h
  · exact h

/-- An instrument before its first attempt to connect. -/
def unopened (config : Configuration) (registry : Registry) (id : String) (bus : Bus) :
    Instrument :=
  ⟨.detached id (initialHost config registry) bus, registry, config, .empty⟩

/-- To open an instrument is to make a first attempt to connect. -/
lemma eq_connect_of_opened {config : Configuration} {id : String} {bus : Bus} {i : Instrument}
    (h : opened config id bus = .ok i) :
    ∃ registry, Registry.ofConfiguration config = .ok registry ∧
      i = after connect (unopened config registry id bus) := by
  obtain ⟨registry, hregistry, h⟩ := Result.bind_eq_ok.mp h
  obtain ⟨link, hlink, h⟩ := Result.bind_eq_ok.mp h
  cases h
  refine ⟨registry, hregistry, ?_⟩
  rw [connect, after_onLink, Link.eq_connect_of_opened hlink]
  rfl

/-- An instrument is sound before its first attempt to connect. -/
lemma sound_unopened {config : Configuration} {registry : Registry}
    (hregistry : Registry.ofConfiguration config = .ok registry) (hidle : A .idle) (id : String)
    (bus : Bus) : Obeys (Host.Sound A) (unopened config registry id bus) := by
  refine ⟨⟨Controller.sound_of_state hidle, fun index s hs => ?_⟩, fun name index hname => ?_⟩
  · obtain ⟨c, hc, rfl⟩ := index_of_initialLines hs
    exact index_lt_of_ofConfiguration hregistry c hc
  · exact Registry.HasLine.lt ⟨name, hname⟩ hregistry

/-- An instrument that was just opened is sound, and its sequencer is idle. -/
lemma sound_of_opened {config : Configuration} {id : String} {bus : Bus} {i : Instrument}
    (h : opened config id bus = .ok i) (hidle : A .idle) : Obeys (Host.Sound A) i := by
  obtain ⟨registry, hregistry, rfl⟩ := eq_connect_of_opened h
  have keeps : Keeps (Obeys (Host.Sound A)) Primitive.Quiet connect :=
    keeps_connect (Host.keeps_initialise hidle)
  exact (keeps _ (sound_unopened hregistry hidle id bus)).1

/-- The invariants hold in every state that an instrument can be in. -/
lemma Reachable.sound {i : Instrument} (h : Reachable i) : Obeys (Host.Sound fun _ => True) i := by
  induction h with
  | opened h => exact sound_of_opened h trivial
  | step e _ ih =>
    cases e with
    | command c => exact (c.keeps _ ih).1
    | bus e => exact ⟨ih.host, ih.index_lt⟩

end Instrument

end PulseSequencer
