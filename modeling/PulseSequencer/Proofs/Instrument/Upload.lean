import PulseSequencer.Proofs.Instrument.Attachment
import PulseSequencer.Proofs.Sequencer.Memory

/-!
# Nothing runs without a program

The controller outlives the board: it is kept while no board is attached, and an attachment resets
it as its last step. So a start that is accepted finds a program that was uploaded to the attached
board: since then the board was neither detached nor attached, and no run was stopped.

* `Controller.eq_of_program_error`: an upload that fails leaves the controller as it was.
* `Instrument.Retains`: an event leaves the board attached, with the program that it has.
* `Instrument.Uploaded`: in a run a program was uploaded and retained since.
* `Instrument.Loaded`, `Instrument.loaded_apply`: an attached board with a program, and where it has
  it from.
* `Instrument.uploaded_of_start`: a start that is accepted was preceded by such an upload;
  `Instrument.uploaded_again` is a run in which others went before it.
-/

namespace PulseSequencer

namespace Controller

/-- An upload that fails leaves the controller. -/
lemma eq_of_program_error {p : Program} {h h' : Held Controller} {e : Error}
    (herror : program p h = .error e h') : h'.state = h.state := by
  by_cases hrun : h.state.state.isRunning = true
  · rw [program_of_running hrun] at herror
    cases herror
    rfl
  · rw [program_of_not_running (Bool.eq_false_of_not_eq_true hrun)] at herror
    rcases error_of_bind herror with hissue | ⟨_, _, _, hchange⟩
    · have keeps : Keeps (OnState (· = h.state)) _ _ := Action.keeps_issueAll (uploading p)
      have hstate := (keeps.held (h := h) rfl).1
      rwa [after_of_error hissue] at hstate
    · cases hchange

/-- Only a program that is there is started. -/
lemma Does.programmed {command : Command} {ps : List Primitive} {c c' : Controller}
    (h : c.Does command ps c') (hstarts : command.starts = true) : c.state = .programmed := by
  cases h with
  | startSingle h => exact h
  | startInfinite h => exact h
  | startCounted h _ => exact h
  | _ => cases hstarts

/-- After a stop the sequencer is idle. -/
lemma Does.idle_of_stop {ps : List Primitive} {c c' : Controller} (h : c.Does .stop ps c') :
    c' = idle := by
  cases h
  rfl

end Controller

namespace Instrument

variable {i i' : Instrument} {c : Command} {e : Event} {events : List Event}

/-- An event leaves the board attached, with the program that it has. -/
structure Retains (i : Instrument) (e : Event) : Prop where
  attached : (e.apply i).link.attached = true
  attaches : ¬Attaches i e
  stops : e = .command .stop → ∀ i', Command.stop.work i ≠ .ok () i'

/-- In a run a program was uploaded, and every event since then has retained it. -/
def Uploaded (i : Instrument) (events : List Event) : Prop :=
  ∃ before c rest i', events = before ++ .command c :: rest ∧ c.uploads = true ∧
    c.work (i.run before) = .ok () i' ∧ Along Retains i' rest

/-- A board is attached, and the controller takes it to have a program. -/
structure Loaded (i : Instrument) : Prop where
  attached : i.link.attached = true
  state : i.host.controller.state ≠ .idle

/-! ## One event -/

/-- A command that uploads a program and fails leaves the controller. -/
lemma controller_of_upload_error (hc : c.uploads = true) {e : Error}
    (herror : c.work i = .error e i') : i'.host.controller = i.host.controller := by
  have program {p : Program} (herror : Instrument.program p i = .error e i') :
      i'.host.controller = i.host.controller := by
    rcases transaction_cases_of_error herror with ⟨-, rfl⟩ | ⟨hwork, -⟩
    · rfl
    · obtain ⟨k, hk, hheld⟩ := Action.error_of_focus hwork
      show i'.link.held.state.controller = _
      rw [hheld]
      exact Controller.eq_of_program_error hk
  cases c with
  | program p => exact program herror
  | programSequence s =>
    cases hcompile : s.builder.compile with
    | error e =>
      simp only [Command.work, programSequence, hcompile] at herror
      cases herror
      rfl
    | ok p =>
      simp only [Command.work, programSequence, hcompile] at herror
      exact program herror
  | _ => cases hc

/-- No start leads out of an idle sequencer. -/
lemma idle_of_start (hc : c.starts = true) (hi : Obeys (Host.Sound fun _ => True) i)
    (hidle : i.host.controller.state = .idle) :
    (after c.work i).host.controller.state = .idle := by
  have sequencer (command : Controller.Command) (hprogram : ∀ p, command ≠ .program p)
      (hstop : command ≠ .stop) : Keeps
        (Obeys fun h => Controller.IdleUnless False h.controller) Primitive.SparesMemory
        (transaction (Host.onController command.work)) :=
    keeps_transaction ((Controller.Command.spares hprogram hstop).focus (fun _ h => h)
      fun _ _ _ h => h)
  have keeps : Keeps (Obeys fun h => Controller.IdleUnless False h.controller)
      Primitive.SparesMemory c.work := by
    cases c with
    | startSingle => exact sequencer .startSingle nofun nofun
    | startInfinite => exact sequencer .startInfinite nofun nofun
    | startCounted count =>
      exact keeps_ofExcept_bind fun _ _ => sequencer (.startCounted count) nofun nofun
    | _ => cases hc
  exact ((keeps i ⟨.inl hidle, hi.index_lt⟩).1.host).resolve_right id

/-- Only an upload that succeeds leads an idle sequencer to another state. -/
lemma idle_apply (hi : Obeys (Host.Sound fun _ => True) i)
    (hnone : ¬∃ c i', e = .command c ∧ c.uploads = true ∧ c.work i = .ok () i')
    (hidle : i.host.controller.state = .idle) : (e.apply i).host.controller.state = .idle := by
  cases e with
  | bus e => exact hidle
  | command c =>
    show (after c.work i).host.controller.state = .idle
    by_cases huploads : c.uploads = true
    · cases hwork : c.work i with
      | ok _ i' => exact absurd ⟨c, i', rfl, huploads, hwork⟩ hnone
      | error e i' => rw [after_of_error hwork, controller_of_upload_error huploads hwork, hidle]
    · by_cases hstarts : c.starts = true
      · exact idle_of_start hstarts hi hidle
      · have keeps : Keeps (Obeys (Host.Sound (· = .idle))) Primitive.Quiet c.work :=
          Command.keeps_quiet (A := (· = .idle)) rfl (fun s hs hrun => by cases hs; cases hrun)
            (absurd · huploads) (Bool.eq_false_of_not_eq_true hstarts) fun _ h => nomatch h
        have hi' : Obeys (Host.Sound (· = .idle)) i :=
          ⟨⟨⟨hidle, hi.host.controller.finished⟩, hi.host.lines⟩, hi.index_lt⟩
        exact (keeps i hi').1.host.controller.state

/-- A board that is attached with a program was attached before, or is attached by the event, which
leaves the controller idle. -/
lemma attached_of_apply (h : (e.apply i).link.attached = true) :
    i.link.attached = true ∨ (e.apply i).host.controller.state = .idle := by
  cases e with
  | bus e => exact .inl h
  | command c =>
    cases (c.affects i).link with
    | nothing held attached => exact .inl (attached h)
    | stored _ _ _ attached => exact .inl (attached ▸ h)
    | attached _ _ _ state _ =>
      exact .inr (congrArg (fun h : Host => h.controller.state) state)
    | did _ attached _ _ => exact .inl attached
    | failed _ _ attached => exact .inl (attached h).1

/-- A stop that succeeds leaves the sequencer idle. -/
lemma idle_of_stop (hok : Command.stop.work i = .ok () i') : i'.host.controller.state = .idle := by
  obtain ⟨-, hwork⟩ := transaction_of_ok hok
  obtain ⟨ps, hdoes, -⟩ := (Host.Task.follows (.sequencer .stop) _).of_ok hwork
  exact congrArg Controller.state hdoes.of_sequencer.idle_of_stop

/-- Where an attached board has its program from: it was uploaded just now, or the board had it
before, and has retained it. -/
lemma loaded_apply (hi : Obeys (Host.Sound fun _ => True) i) (h : Loaded (e.apply i)) :
    (∃ c i', e = .command c ∧ c.uploads = true ∧ c.work i = .ok () i') ∨
      Loaded i ∧ Retains i e := by
  by_cases huploads : ∃ c i', e = .command c ∧ c.uploads = true ∧ c.work i = .ok () i'
  · exact .inl huploads
  · have hattached : i.link.attached = true := (attached_of_apply h.attached).resolve_right h.state
    refine .inr ⟨⟨hattached, h.state ∘ idle_apply hi huploads⟩, h.attached, ?_, ?_⟩
    · intro hattaches
      cases hattached.symm.trans hattaches.1
    -- a stop that succeeds would have left the controller idle
    · rintro rfl i' hok
      refine h.state ?_
      rw [Event.apply, after_of_ok hok]
      exact idle_of_stop hok

/-! ## Runs -/

/-- What holds along a run, and of one more event, holds along the longer run. -/
lemma along_concat {P : Instrument → Event → Prop} (h : Along P i events)
    (he : P (i.run events) e) : Along P i (events ++ [e]) := by
  induction events generalizing i with
  | nil => exact ⟨he, trivial⟩
  | cons first rest ih => exact ⟨h.1, ih h.2 he⟩

/-- A program that was uploaded and is retained by one more event is there still. -/
lemma Uploaded.concat (h : Uploaded i events) (he : Retains (i.run events) e) :
    Uploaded i (events ++ [e]) := by
  obtain ⟨before, c, rest, i', rfl, huploads, hok, along⟩ := h
  have hrun : i.run (before ++ .command c :: rest) = i'.run rest := by
    rw [run_append, ← after_of_ok hok]
    rfl
  exact ⟨before, c, rest ++ [e], i', by simp, huploads, hok, along_concat along (hrun ▸ he)⟩

variable {config : Configuration} {id : String} {bus : Bus}

/-- A board that is attached with a program had one uploaded, and has retained it since. -/
lemma uploaded_of_loaded (h : opened config id bus = .ok i) (hloaded : Loaded (i.run events)) :
    Uploaded i events := by
  induction events using List.reverseRecOn with
  | nil =>
    have hsound : Obeys (Host.Sound (· = .idle)) i := sound_of_opened h rfl
    exact absurd hsound.host.controller.state hloaded.state
  | append_singleton events e ih =>
    have hrun : i.run (events ++ [e]) = e.apply (i.run events) := run_append i events [e]
    have hsound := ((Reachable.opened h).run events).sound
    rcases loaded_apply hsound (hrun ▸ hloaded) with ⟨c, i', rfl, hc, hok⟩ | ⟨hbefore, hretains⟩
    · exact ⟨events, c, [], i', rfl, hc, hok, trivial⟩
    · exact (ih hbefore).concat hretains

/-- A start that succeeds runs a program that was uploaded to this attachment of the board, and
since the last run was stopped. -/
theorem uploaded_of_start (h : opened config id bus = .ok i) (hc : c.starts = true)
    (hok : c.work (i.run events) = .ok () i') : Uploaded i events := by
  obtain ⟨command, hstarts, hattached, htask⟩ := c.task_of_starts hc hok
  obtain ⟨ps, hdoes, -⟩ := (Host.Task.follows _ _).of_ok htask
  have hstate := hdoes.of_sequencer.programmed hstarts
  refine uploaded_of_loaded h ⟨hattached, fun hidle => ?_⟩
  cases hstate.symm.trans hidle

/-- A program is lost with the board, one is stopped, and an upload fails before another one
succeeds. -/
def uploads : List Event :=
  [.command (.program ⟨[0, 0x10, 10, 0, 0, 0, 0], 10⟩), .command .disconnect, .command .connect,
    .command (.program ⟨[0, 0x10, 10, 0, 0, 0, 0], 10⟩), .command .startInfinite, .command .stop,
    .bus (.expect (some ⟨2, .reported (.failed "trigger" "link")⟩)),
    .command (.program ⟨[0, 0x10, 10, 0, 0, 0, 0], 10⟩), .command .startSingle,
    .command (.program ⟨[0, 0x10, 10, 0, 0, 0, 0], 10⟩), .command .pollDone]

set_option maxRecDepth 20000 in
/-- After these uploads a program is there to be started. -/
theorem uploaded_again :
    opened bareConfiguration "board" (.new .new) = .ok (after connect unconnected) ∧
      Command.startSingle.starts = true ∧
      (∃ i', Command.startSingle.work ((after connect unconnected).run uploads) = .ok () i') ∧
      Uploaded (after connect unconnected) uploads := by
  have hok : Command.startSingle.work ((after connect unconnected).run uploads) =
    .ok () ((after connect unconnected).run (uploads ++ [.command .startSingle])) := by rfl
  exact ⟨opened_unconnected, rfl, ⟨_, hok⟩, uploaded_of_start opened_unconnected rfl hok⟩

end Instrument

end PulseSequencer
