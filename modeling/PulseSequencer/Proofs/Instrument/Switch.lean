import PulseSequencer.Proofs.Instrument.Effect

/-!
# Switching a line

To switch a channel is to write the two bits of its line to the board in three operations, to keep
the new state of the line once the board has it, and to announce it. If one of the operations fails,
the host's state is as it was, and only the operations before have reached the board.

* `Host.line_of_switchLine`, `Host.switchLine_of_error`: how the switch of a line ends.
* `Instrument.announce`: a switch and its announcement, and `Instrument.Command.work_of_switch`, the
  commands that are one.
* `Instrument.lineState_of_switchLine`: what is reported of the line afterwards.
-/

namespace PulseSequencer

/-- If a list of operations fails, those before the one that failed have reached the board. -/
lemma Action.issueAll_of_error {σ : Type} {ps : List Primitive} {h h' : Held σ} {e : Error}
    (herror : issueAll ps h = .error e h') :
    h'.state = h.state ∧ ∃ k < ps.length, h'.bus.board = h.bus.board.replay (ps.take k) := by
  induction ps generalizing h with
  | nil => cases herror
  | cons p ps ih =>
    rcases error_of_bind herror with hfirst | ⟨reply, h₁, hfirst, hrest⟩
    · obtain ⟨hstate, hboard⟩ := issue_of_error hfirst
      exact ⟨hstate, 0, Nat.succ_pos _, hboard⟩
    · obtain ⟨hstate, hboard⟩ := issue_of_ok hfirst
      obtain ⟨hstate', k, hk, hboard'⟩ := ih hrest
      refine ⟨hstate'.trans hstate, k + 1, Nat.succ_lt_succ hk, ?_⟩
      rw [hboard', hboard, List.take_succ_cons, Board.replay_cons]

namespace Host

variable {index : UInt8} {update : LineState → LineState} {line : LineState} {h h' : Held Host}

/-- The bits of a line are written to the board by a list of operations. -/
lemma writeLine_eq (hindex : index.toNat < lineLimit) (line : LineState) :
    writeLine index line = Action.issueAll (switching index line) := by
  rw [writeLine, if_neg (Nat.not_le_of_lt hindex)]
  have hcommit : (Wire.commit : Action Host Unit) = Action.issueAll [.commit] :=
    (bind_pure_unit (x := (Wire.commit : Action Host PUnit))).symm
  rw [hcommit]
  rfl

/-- What the switch of a line answers is what the host keeps for it. -/
lemma line_of_switchLine (hok : switchLine index update h = .ok line h') :
    h'.state.lines index = some line := by
  obtain ⟨_, _, hstate, hrest⟩ := ok_of_bind hok
  cases hstate
  obtain ⟨_, _, -, hrest⟩ := ok_of_bind hrest
  obtain ⟨_, _, hchange, hpure⟩ := ok_of_bind hrest
  cases hchange
  cases hpure
  exact if_pos rfl

/-- A switch that fails changes nothing of the host's state, and has brought the operations before
the one that failed to the board. -/
lemma switchLine_of_error {e : Error} (hindex : index.toNat < lineLimit)
    (herror : switchLine index update h = .error e h') :
    h'.state = h.state ∧ ∃ k < 3, h'.bus.board = h.bus.board.replay
      ((switching index (update ((h.state.lines index).getD default))).take k) := by
  rcases error_of_bind herror with hstate | ⟨_, _, hstate, hrest⟩
  · cases hstate
  · cases hstate
    rcases error_of_bind hrest with hwrite | ⟨_, _, -, hchange⟩
    · rw [writeLine_eq hindex] at hwrite
      exact Action.issueAll_of_error hwrite
    · cases hchange

end Host

namespace Instrument

variable {i i' : Instrument} {channel : String} {index : UInt8} {update : LineState → LineState}
  {line : LineState}

/-- To switch a channel is to switch its line. -/
lemma switchLine_eq (hindex : i.registry.hardwareIndex channel = .ok index) :
    switchLine channel update i = transaction (Host.switchLine index update) i := by
  show (ofExcept (i.registry.hardwareIndex channel) >>= fun index =>
    transaction (Host.switchLine index update)) i = _
  rw [hindex]
  rfl

/-- A switch that succeeds is that of a channel in the registry. -/
lemma hardwareIndex_of_switchLine (hok : switchLine channel update i = .ok line i') :
    ∃ index, i.registry.hardwareIndex channel = .ok index := by
  obtain ⟨_, _, hget, hrest⟩ := ok_of_bind hok
  cases hget
  obtain ⟨_, _, hindex, -⟩ := ok_of_bind hrest
  cases hr : i.registry.hardwareIndex channel with
  | ok index => exact ⟨index, rfl⟩
  | error e =>
    rw [hr] at hindex
    cases hindex

/-- The state of a line is the one that the host keeps. -/
lemma lineState_of_lines (hindex : i.registry.hardwareIndex channel = .ok index)
    (hline : i.host.lines index = some line) : i.lineState channel = .ok line := by
  simp only [lineState, hindex, Bind.bind, Except.bind, hline]
  rfl

/-- The state of a line depends on the registry and on what the host keeps for lines. -/
lemma lineState_congr (hregistry : i'.registry = i.registry) (hlines : i'.host.lines = i.host.lines)
    (channel : String) : i'.lineState channel = i.lineState channel := by
  rw [lineState, lineState, hregistry, hlines]

/-- The state of a line after a switch is the one that the switch returned. -/
lemma lineState_of_switchLine (hok : switchLine channel update i = .ok line i') :
    i'.lineState channel = .ok line := by
  obtain ⟨index, hindex⟩ := hardwareIndex_of_switchLine hok
  rw [switchLine_eq hindex] at hok
  obtain ⟨-, hwork⟩ := transaction_of_ok hok
  obtain ⟨link, -, rfl⟩ := ok_of_onLink hok
  exact lineState_of_lines hindex (Host.line_of_switchLine hwork)

/-- Switches a channel's line and announces it. -/
def announce (origin : Option SessionId) (channel : String) (update : LineState → LineState)
    (event : LineState → SwitchEvent) : Operation Unit := do
  let line ← switchLine channel update
  notify origin channel (event line)

/-- A command that switches a channel is a switch and its announcement. -/
lemma Command.work_of_switch {c : Command} (h : c.switch = some (channel, update)) :
    ∃ origin event, c.work = announce origin channel update event := by
  cases c with
  | switchManual origin _ _ =>
    cases h
    exact ⟨origin, fun line => if line.level then .manualOn else .manualOff, rfl⟩
  | switchAuto origin _ _ =>
    cases h
    exact ⟨origin, fun _ => .auto, rfl⟩
  | _ => cases h

/-- An announcement does not fail: what fails is the switch. -/
lemma switchLine_of_error {c : Command} (h : c.switch = some (channel, update)) {e : Error}
    (herror : c.work i = .error e i') : switchLine channel update i = .error e i' := by
  obtain ⟨origin, event, hwork⟩ := Command.work_of_switch h
  rw [hwork] at herror
  rcases error_of_bind herror with hswitch | ⟨_, _, -, hnotify⟩
  · exact hswitch
  · cases hnotify

end Instrument

end PulseSequencer
