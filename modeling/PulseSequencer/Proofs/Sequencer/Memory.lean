import PulseSequencer.Proofs.Sequencer.Run

/-!
# Program memory and the state of the sequencer

A sequencer that may be started should have its program in memory. An upload and a stop both clear
the memory with their first operation and change the state after their last one, so that a failure
in between leaves a sequencer that can be started without a program.

* `Board.memory`: what the log says about program memory.
* `Controller.Intact`: unless the sequencer is idle, a whole program of the run is in memory.
* `Controller.CutShort`: a step that fails between clearing the memory and changing the state.
* `Controller.intact_iff_not_cutShort`: these steps are the only ones that break it;
  `Controller.reupload_cut_short` is such a run.
-/

namespace PulseSequencer

/-- What program memory holds after an operation: a reset clears it, an upload fills it. -/
def Primitive.load (memory : Option (List Byte)) : Primitive → Option (List Byte)
  | .trigger address bit =>
    if address = Endpoint.trigger ∧ bit = Pulse.resetMemory then none else memory
  | .writePipe address bytes => if address = Endpoint.program then some bytes else memory
  | _ => memory

/-- What was written to program memory since it was last cleared. -/
def Board.memory (b : Board) : Option (List Byte) := b.log.foldl Primitive.load none

/-- An operation that leaves program memory as it is. -/
def Primitive.SparesMemory (p : Primitive) : Prop := ∀ memory, p.load memory = memory

namespace Board

/-- Operations change program memory one after the other. -/
lemma memory_replay (b : Board) (ps : List Primitive) :
    (b.replay ps).memory = ps.foldl Primitive.load b.memory := by
  rw [memory, log_replay, List.foldl_append]
  rfl

/-- Operations that spare program memory do so in a row. -/
lemma memory_replay_of_spares {ps : List Primitive} (h : ∀ p ∈ ps, p.SparesMemory) (b : Board) :
    (b.replay ps).memory = b.memory := by
  induction ps generalizing b with
  | nil => rfl
  | cons p ps ih =>
    rw [replay_cons, ih fun q hq => h q (List.mem_cons_of_mem p hq)]
    have hp := b.memory_replay [p]
    rw [replay_cons, replay_nil] at hp
    rw [hp]
    exact h p List.mem_cons_self b.memory

end Board

namespace Controller

/-- Unless the sequencer is idle, the whole of a program that the steps were about is in memory. -/
def Intact (steps : List Step) (h : Held Controller) : Prop :=
  h.state.state ≠ .idle →
    ∃ s ∈ steps, ∃ p, s.command = .program p ∧ h.bus.board.memory = some p.bytes

/-- A step that fails between clearing the memory and changing the state: an upload in place of a
program that fails to write the new one, or a stop that fails after its first operation. -/
def CutShort (h : Held Controller) (s : Step) : Prop :=
  match s.command with
  | .program _ => h.state.state = .programmed ∧ ∃ f, s.fault = some ⟨1, f⟩
  | .stop => (∃ bits, h.state.stopBits = .ok bits) ∧ ∃ k f, s.fault = some ⟨k, f⟩ ∧ 1 ≤ k ∧ k ≤ 3
  | _ => False

/-! ## Commands that spare the memory -/

section
variable {A : Prop}

/-- The sequencer is idle unless `A`. -/
def IdleUnless (A : Prop) (c : Controller) : Prop := c.state = .idle ∨ A

/-- The run bits are written without touching program memory. -/
lemma spares_setRun (bits : Word) :
    Keeps (OnState (IdleUnless A)) Primitive.SparesMemory (setRun bits) :=
  .write (fun _ => rfl) fun _ => rfl

/-- To forget a finished run spares program memory. -/
lemma spares_clearFinished :
    Keeps (OnState (IdleUnless A)) Primitive.SparesMemory clearFinished := by
  refine .state_bind fun c _ => ?_
  cases c.finished with
  | none => exact .pure ()
  | some stop => exact .bind (spares_setRun stop) fun _ => .change fun _ h => h

/-- A start goes on only from a state other than idle. -/
lemma spares_prepareStart_bind {f : Unit → Action Controller Unit}
    (hf : A → Keeps (OnState (IdleUnless A)) Primitive.SparesMemory (f ())) :
    Keeps (OnState (IdleUnless A)) Primitive.SparesMemory (prepareStart >>= f) := by
  rw [prepareStart, bind_assoc]
  refine .state_bind fun c hc => ?_
  rw [bind_assoc]
  refine .ofExcept_bind fun _ hstart => ?_
  rcases hc with hc | hA
  · rw [hc] at hstart
    cases hstart
  · exact .bind spares_clearFinished fun _ => hf hA

/-- Only one of the triggers clears program memory. -/
lemma sparesMemory_trigger {bit : UInt8} (h : bit ≠ Pulse.resetMemory) :
    (Primitive.trigger Endpoint.trigger bit).SparesMemory :=
  fun _ => if_neg fun hbit => h hbit.2

/-- The start of a single run spares program memory. -/
lemma spares_startSingle : Keeps (OnState (IdleUnless A)) Primitive.SparesMemory startSingle := by
  refine spares_prepareStart_bind fun hA => ?_
  refine .bind (.trigger (sparesMemory_trigger (by decide))) fun _ => ?_
  exact .bind (spares_setRun _) fun _ => .change fun _ _ => .inr hA

/-- The start of a looped run spares program memory. -/
lemma spares_startLooped (repetitions : Word) (running : RunState) :
    Keeps (OnState (IdleUnless A)) Primitive.SparesMemory (startLooped repetitions running) := by
  refine spares_prepareStart_bind fun hA => ?_
  refine .bind (.write (fun _ => rfl) fun _ => rfl) fun _ => ?_
  refine .bind (.trigger (sparesMemory_trigger (by decide))) fun _ => ?_
  exact .bind (spares_setRun _) fun _ => .change fun _ _ => .inr hA

/-- To complete a run spares program memory. -/
lemma spares_complete : Keeps (OnState (IdleUnless A)) Primitive.SparesMemory complete := by
  refine .state_bind fun c hc => ?_
  refine .ite (fun _ => .throw_bind) fun hstate => ?_
  refine .bind (spares_setRun _) fun _ => .change fun _ _ => .inr ?_
  rcases hc with hc | hA
  · exact absurd (fun h => RunState.noConfusion (hc.symm.trans h)) hstate
  · exact hA

/-- An idle sequencer is not seen to finish. -/
lemma idleUnless_finish {c : Controller} (h : IdleUnless A c) : IdleUnless A c.finish := by
  rcases h with h | hA
  · left
    simp only [finish, h]
  · exact .inr hA

/-- A readout spares program memory. -/
lemma spares_readout (select : Readout) :
    Keeps (OnState (IdleUnless A)) Primitive.SparesMemory (Wire.readout select) :=
  .readout (fun _ => rfl) (fun _ => rfl) (fun _ => rfl) fun _ => rfl

/-- A poll spares program memory. -/
lemma spares_pollDone : Keeps (OnState (IdleUnless A)) Primitive.SparesMemory pollDone := by
  refine .bind (spares_readout .done) fun word => ?_
  refine .ite (fun _ => ?_) fun _ => .pure _
  exact .bind (.change fun _ => idleUnless_finish) fun _ => .pure _

/-- A question for the repetitions spares program memory. -/
lemma spares_repetitions : Keeps (OnState (IdleUnless A)) Primitive.SparesMemory repetitions := by
  refine .state_bind fun c _ => ?_
  cases c.state with
  | runningInfinite => exact spares_readout _
  | runningCounted n => exact spares_readout _
  | idle => exact .throw _
  | programmed => exact .throw _
  | runningSingle => exact .throw _

end

/-- A command that neither uploads nor stops leaves the memory alone and an idle sequencer idle. -/
lemma Command.spares {A : Prop} {c : Command} (hprogram : ∀ p, c ≠ .program p) (hstop : c ≠ .stop) :
    Keeps (OnState (IdleUnless A)) Primitive.SparesMemory c.work := by
  cases c with
  | program p => exact absurd rfl (hprogram p)
  | startSingle => exact spares_startSingle
  | startInfinite => exact spares_startLooped _ _
  | startCounted count => exact .ofExcept_bind fun _ _ => spares_startLooped _ _
  | complete => exact spares_complete
  | stop => exact absurd rfl hstop
  | pollDone => exact .bind spares_pollDone fun _ => .pure ()
  | repetitions => exact .bind spares_repetitions fun _ => .pure ()

/-! ## Uploads -/

/-- An upload that is accepted fails before the memory was cleared, fails with the memory cleared,
or has the program in memory. -/
lemma after_program {h : Held Controller} (hpresent : h.bus.board.present = true)
    (hrun : h.state.state.isRunning = false) (p : Program) :
    (∃ f, h.bus.fault = some ⟨0, f⟩ ∧ (after (program p) h).state = h.state ∧
        (after (program p) h).bus.board.memory = h.bus.board.memory) ∨
      (∃ f, h.bus.fault = some ⟨1, f⟩ ∧ (after (program p) h).state = h.state ∧
        (after (program p) h).bus.board.memory = none) ∨
      (∀ f, h.bus.fault ≠ some ⟨1, f⟩) ∧
        (after (program p) h).bus.board.memory = some p.bytes := by
  have hafter : after (program p) h = after (Action.issueAll (uploading p) >>= fun _ =>
      Action.change ({ · with state := .programmed })) h := by
    rw [after, program_of_not_running hrun p, ← after]
  rw [hafter]
  rcases Action.after_issueAll_change (uploading p) _ hpresent with
    ⟨k, f, hfault, hk, hstate, hboard⟩ | ⟨hpass, hstate, hboard⟩
  · rw [hstate, hboard, Board.memory_replay]
    -- the second operation clears the memory, and the third one writes it
    rcases k with _ | _ | _ | k
    · exact .inl ⟨f, hfault, rfl, rfl⟩
    · exact .inr (.inl ⟨f, hfault, rfl, rfl⟩)
    · exact .inr (.inr ⟨by simp [hfault], rfl⟩)
    · exact absurd hk (Nat.not_lt_of_le (Nat.le_add_left 3 k))
  · rw [hboard, Board.memory_replay]
    refine .inr (.inr ⟨fun f hfault => ?_, rfl⟩)
    have hlength := hpass 1 f hfault
    simp [uploading] at hlength

/-! ## Stops -/

/-- A stop that is accepted fails before the memory was cleared, fails with the memory cleared, or
leaves the sequencer idle. -/
lemma after_stop {h : Held Controller} {bits : Word} (hpresent : h.bus.board.present = true)
    (hbits : h.state.stopBits = .ok bits) :
    (∃ f, h.bus.fault = some ⟨0, f⟩ ∧ (after stop h).state = h.state ∧
        (after stop h).bus.board.memory = h.bus.board.memory) ∨
      (∃ k f, h.bus.fault = some ⟨k, f⟩ ∧ 1 ≤ k ∧ k ≤ 3 ∧ (after stop h).state = h.state ∧
        (after stop h).bus.board.memory = none) ∨
      (∀ k f, h.bus.fault = some ⟨k, f⟩ → 4 ≤ k) ∧ (after stop h).state = idle := by
  have hafter : after stop h = after (Action.issueAll (halting bits) >>= fun _ =>
      Action.change fun _ => idle) h := by
    rw [after, stop_of_ok hbits, ← after]
  rw [hafter]
  rcases Action.after_issueAll_change (halting bits) _ hpresent with
    ⟨k, f, hfault, hk, hstate, hboard⟩ | ⟨hpass, hstate, _⟩
  · rw [hstate, hboard, Board.memory_replay]
    rcases k with _ | _ | _ | _ | k
    · exact .inl ⟨f, hfault, rfl, rfl⟩
    · exact .inr (.inl ⟨1, f, hfault, by decide, by decide, rfl, rfl⟩)
    · exact .inr (.inl ⟨2, f, hfault, by decide, by decide, rfl, rfl⟩)
    · exact .inr (.inl ⟨3, f, hfault, by decide, by decide, rfl, rfl⟩)
    · exact absurd hk (Nat.not_lt_of_le (Nat.le_add_left 4 k))
  · exact .inr (.inr ⟨hpass, hstate⟩)

/-! ## Runs -/

/-- The board stays in its slot. -/
lemma present_perform (s : Step) (h : Held Controller) :
    (s.perform h).bus.board.present = h.bus.board.present := by
  have keeps : Keeps (OnState (IdleUnless True)) (fun _ => True) s.command.work := by
    cases hc : s.command with
    | program p =>
      refine .state_bind fun c _ => .ite (fun _ => .throw_bind) fun _ => ?_
      refine .bind (.trigger trivial) fun _ => .bind (.writePipe trivial) fun _ => ?_
      exact .bind (.trigger trivial) fun _ => .change fun _ _ => .inr trivial
    | stop =>
      refine .state_bind fun c _ => .ofExcept_bind fun bits _ => ?_
      refine .bind (.trigger trivial) fun _ => .bind (.write trivial trivial) fun _ => ?_
      exact .bind (.trigger trivial) fun _ => .change fun _ _ => .inr trivial
    | _ => exact .mono (fun _ _ => trivial) (Command.spares (by simp) (by simp))
  obtain ⟨_, ps, _, hboard⟩ := keeps.held (h := s.prepare h) (.inr trivial)
  rw [Step.perform, hboard, Board.present_replay]
  rfl

section
variable {steps : List Step} {h h' : Held Controller} {s : Step}

/-- A step that is cut short leaves a sequencer that is not idle without a program. -/
lemma not_intact_of_cutShort (hpresent : h.bus.board.present = true) (hcut : CutShort h s) :
    ¬Intact steps (s.perform h) := by
  -- the memory is empty, and the state is what it was before the step
  suffices hlost : (s.perform h).state.state ≠ .idle ∧ (s.perform h).bus.board.memory = none by
    intro hintact
    obtain ⟨_, _, p, _, hp⟩ := hintact hlost.1
    rw [hlost.2] at hp
    cases hp
  cases hs : s.command with
  | program p =>
    rw [CutShort, hs] at hcut
    obtain ⟨hstate, f, hfault⟩ := hcut
    have hrun : h.state.state.isRunning = false := by rw [hstate]; rfl
    rw [perform_eq hs h]
    rcases after_program (h := s.prepare h) hpresent hrun p with
      ⟨_, hzero, _⟩ | ⟨_, _, hafter, hmemory⟩ | ⟨hnone, _⟩
    · cases hfault.symm.trans hzero
    · refine ⟨fun hidle => ?_, hmemory⟩
      cases hstate.symm.trans ((congrArg Controller.state hafter).symm.trans hidle)
    · exact absurd hfault (hnone f)
  | stop =>
    rw [CutShort, hs] at hcut
    obtain ⟨⟨bits, hbits⟩, k, f, hfault, hlow, hhigh⟩ := hcut
    rw [perform_eq hs h]
    rcases after_stop (h := s.prepare h) hpresent hbits with
      ⟨_, hzero, _⟩ | ⟨_, _, _, _, _, hafter, hmemory⟩ | ⟨hpass, _⟩
    · cases hfault.symm.trans hzero
      omega
    · refine ⟨fun hidle => state_ne_idle_of_stopBits hbits ?_, hmemory⟩
      exact (congrArg Controller.state hafter).symm.trans hidle
    · have := hpass k f hfault
      omega
  | _ =>
    rw [CutShort, hs] at hcut
    exact hcut.elim

/-- What was in memory is still there. -/
lemma Intact.of_spared (hin : Intact steps h)
    (hstate : h'.state.state ≠ .idle → h.state.state ≠ .idle)
    (hmemory : h'.bus.board.memory = h.bus.board.memory) : Intact (steps ++ [s]) h' := by
  intro hne
  obtain ⟨s', hs', p, hp, hbytes⟩ := hin (hstate hne)
  exact ⟨s', List.mem_append_left [s] hs', p, hp, hmemory.trans hbytes⟩

/-- An upload that is not cut short leaves its whole program in memory. -/
lemma intact_program {p : Program} (hpresent : h.bus.board.present = true) (hin : Intact steps h)
    (hs : s.command = .program p) (hcut : ¬CutShort h s) : Intact (steps ++ [s]) (s.perform h) := by
  rw [CutShort, hs] at hcut
  rw [perform_eq hs h]
  cases hrun : h.state.state.isRunning with
  | true =>
    have herror := program_of_running (h := s.prepare h) hrun p
    exact hin.of_spared (by rw [Command.work, after_of_error herror]; exact id)
      (by rw [Command.work, after_of_error herror]; rfl)
  | false =>
    rcases after_program (h := s.prepare h) hpresent hrun p with
      ⟨_, _, hafter, hmemory⟩ | ⟨f, hfault, hafter, _⟩ | ⟨_, hmemory⟩
    · exact hin.of_spared (fun hne hidle => hne ((congrArg Controller.state hafter).trans hidle))
        hmemory
    · intro hne
      have hstate : h.state.state ≠ .idle := fun hidle =>
        hne ((congrArg Controller.state hafter).trans hidle)
      refine absurd ⟨?_, f, hfault⟩ hcut
      cases hc : h.state.state with
      | programmed => rfl
      | idle => exact absurd hc hstate
      | _ => rw [hc] at hrun; cases hrun
    · exact fun _ => ⟨s, List.mem_append_right steps (.head _), p, hs, hmemory⟩

/-- A stop that is not cut short keeps memory and controller in agreement. -/
lemma intact_stop (hpresent : h.bus.board.present = true) (hin : Intact steps h)
    (hs : s.command = .stop) (hcut : ¬CutShort h s) : Intact (steps ++ [s]) (s.perform h) := by
  rw [CutShort, hs] at hcut
  rw [perform_eq hs h]
  cases hbits : h.state.stopBits with
  | error e =>
    have herror := stop_of_error (h := s.prepare h) hbits
    exact hin.of_spared (by rw [Command.work, after_of_error herror]; exact id)
      (by rw [Command.work, after_of_error herror]; rfl)
  | ok bits =>
    rcases after_stop (h := s.prepare h) hpresent hbits with
      ⟨_, _, hafter, hmemory⟩ | ⟨k, f, hfault, hlow, hhigh, _⟩ | ⟨_, hafter⟩
    · exact hin.of_spared (fun hne hidle => hne ((congrArg Controller.state hafter).trans hidle))
        hmemory
    · exact absurd ⟨⟨bits, hbits⟩, k, f, hfault, hlow, hhigh⟩ hcut
    · exact fun hne => absurd (congrArg Controller.state hafter) hne

/-- Every step that is not cut short keeps a program in memory. -/
lemma intact_of_not_cutShort (hpresent : h.bus.board.present = true) (hin : Intact steps h)
    (hcut : ¬CutShort h s) : Intact (steps ++ [s]) (s.perform h) := by
  by_cases hprogram : ∃ p, s.command = .program p
  · obtain ⟨p, hp⟩ := hprogram
    exact intact_program hpresent hin hp hcut
  · by_cases hstop : s.command = .stop
    · exact intact_stop hpresent hin hstop hcut
    · have keeps := Command.spares (A := h.state.state ≠ .idle) (not_exists.mp hprogram) hstop
      obtain ⟨hstate, ps, hps, hboard⟩ := keeps.held (h := s.prepare h) (Classical.em _)
      refine hin.of_spared (fun hne => hstate.resolve_left hne) ?_
      rw [Step.perform, hboard, Board.memory_replay_of_spares hps]
      rfl

end

/-- The board stays in its slot. -/
lemma present_run (board : Board) (steps : List Step) :
    (run (fresh board) steps).bus.board.present = true := by
  induction steps using List.reverseRecOn with
  | nil => rfl
  | append_singleton steps s ih => rw [run_append, present_perform, ih]

/-- In a run of commands any operation of which may fail, a sequencer that is not idle always has
the whole of an uploaded program in memory exactly if no step is cut short. -/
theorem intact_iff_not_cutShort (board : Board) (steps : List Step) :
    (∀ done, done <+: steps → Intact done (run (fresh board) done)) ↔
      ∀ done s, done ++ [s] <+: steps → ¬CutShort (run (fresh board) done) s := by
  constructor
  · intro hintact done s hpre hcut
    have hnext := hintact _ hpre
    rw [run_append] at hnext
    exact not_intact_of_cutShort (present_run board done) hcut hnext
  · intro hcut done
    induction done using List.reverseRecOn with
    | nil => exact fun _ hne => absurd rfl hne
    | append_singleton done s ih =>
      intro hpre
      have hdone : done <+: steps := (List.prefix_append done [s]).trans hpre
      rw [run_append]
      exact intact_of_not_cutShort (present_run board done) (ih hdone) (hcut done s hpre)

/-- A pulse on line 4 that lasts ten ticks. -/
def shortPulse : Program := ⟨[0, 0x10, 10, 0, 0, 0, 0], 10⟩

/-- An upload over another one, in which the link fails after the memory was cleared. -/
def reupload : List Step :=
  [⟨.program shortPulse, none, false, 0⟩,
    ⟨.program shortPulse, some ⟨1, .reported (.failed "primitive" "link")⟩, false, 0⟩]

/-- After it the sequencer may be started, with nothing in memory. -/
theorem reupload_cut_short :
    (run (fresh .new) reupload).state.state = .programmed ∧
      (run (fresh .new) reupload).bus.board.memory = none ∧
      ¬∀ done, done <+: reupload → Intact done (run (fresh .new) done) := by
  refine ⟨by decide, by decide, fun hintact => ?_⟩
  obtain ⟨_, _, p, _, hmemory⟩ := hintact reupload (List.prefix_refl _) (by decide)
  cases hmemory

end Controller

end PulseSequencer
