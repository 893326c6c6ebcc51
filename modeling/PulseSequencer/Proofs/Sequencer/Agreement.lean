import PulseSequencer.Proofs.Board.RunBit
import PulseSequencer.Proofs.Instrument.Task

/-!
# Controller and control wire

The state of the controller says what the sequencer field of the control wire is, and in a looped
run also the number of repetitions. A run that finished by itself still has its run bits on the
wire: that is what the controller keeps its stop bits for. No other work on the board touches these
fields.

* `Controller.Agrees`: the controller and the wires say the same.
* `Host.Does.agrees`: whatever a task does keeps this.
* `Host.Turn`, `Host.turns`: tasks on an attached board, with what happens to it in between.
* `Board.StartsOnce`: operations with one rise of the run bit, after a reset of the counter.
* `Host.turns_agree`: in every state of a run that loses no operation controller and wires agree, a
  stop is accepted exactly while the run bit is set, and every accepted start raises it once.
-/

namespace PulseSequencer

namespace Control

/-- The run bit is in the sequencer field. -/
lemma has_run_field (w : Word) : has (w &&& sequencer) run = has w run := by
  rw [has, has, BitVec.and_assoc]
  rfl

/-- The bits of a single run have the run bit. -/
lemma has_run_of_startSingle {w : Word} (h : w &&& sequencer = startSingle) : has w run = true := by
  rw [← has_run_field, h]
  rfl

/-- The bits of a looped run have the run bit. -/
lemma has_run_of_startLooped {w : Word} (h : w &&& sequencer = startLooped) : has w run = true := by
  rw [← has_run_field, h]
  rfl

end Control

namespace Controller

/-- The sequencer field of the control wire and the repetitions are those that belong to the state
of the controller. -/
def Agrees (c : Controller) (wires : Address → Word) : Prop :=
  let field := wires Endpoint.control &&& Control.sequencer
  match c.state, c.finished with
  | .idle, none | .programmed, none => Control.has field Control.run = false
  | .programmed, some stop =>
    stop = Control.stopSingle ∧ field = Control.startSingle ∨
      stop = Control.stopLooped ∧ field = Control.startLooped
  | .runningSingle, none => field = Control.startSingle
  | .runningInfinite, none => field = Control.startLooped ∧ wires Endpoint.repetitions = 0
  | .runningCounted n, none =>
    field = Control.startLooped ∧ wires Endpoint.repetitions = BitVec.ofNat 32 n.toNat ∧
      1 ≤ n.toNat ∧ n.toNat ≤ 65535
  | .idle, some _ | .runningSingle, some _ | .runningInfinite, some _ | .runningCounted _, some _ =>
    False

variable {c c' : Controller} {wires wires' : Address → Word}

/-- Agreement is about the sequencer field and the repetitions only. -/
lemma Agrees.congr (h : c.Agrees wires)
    (hcontrol : wires' Endpoint.control &&& Control.sequencer =
      wires Endpoint.control &&& Control.sequencer)
    (hrepetitions : wires' Endpoint.repetitions = wires Endpoint.repetitions) :
    c.Agrees wires' := by
  unfold Agrees at h ⊢
  rw [hcontrol, hrepetitions]
  exact h

/-- A stop is accepted exactly while the run bit is set. -/
lemma Agrees.stopBits_iff (h : c.Agrees wires) :
    (∃ bits, c.stopBits = .ok bits) ↔ Control.has (wires Endpoint.control) Control.run = true := by
  -- a stop has bits while a program runs, or if one has run and was not stopped yet
  obtain ⟨state, finished⟩ := c
  cases state with
  | idle =>
    cases finished with
    | none =>
      refine iff_of_false nofun ?_
      rw [← Control.has_run_field, h]
      exact Bool.false_ne_true
    | some stop => exact h.elim
  | programmed =>
    cases finished with
    | none =>
      refine iff_of_false nofun ?_
      rw [← Control.has_run_field, h]
      exact Bool.false_ne_true
    | some stop =>
      refine iff_of_true ⟨stop, rfl⟩ ?_
      rcases h with ⟨-, h⟩ | ⟨-, h⟩
      · exact Control.has_run_of_startSingle h
      · exact Control.has_run_of_startLooped h
  | runningSingle =>
    cases finished with
    | none => exact iff_of_true ⟨_, rfl⟩ (Control.has_run_of_startSingle h)
    | some stop => exact h.elim
  | runningInfinite =>
    cases finished with
    | none => exact iff_of_true ⟨_, rfl⟩ (Control.has_run_of_startLooped h.1)
    | some stop => exact h.elim
  | runningCounted n =>
    cases finished with
    | none => exact iff_of_true ⟨_, rfl⟩ (Control.has_run_of_startLooped h.1)
    | some stop => exact h.elim

/-- The bits of a stop clear the run bit. -/
lemma Agrees.has_run_stopBits (h : c.Agrees wires) {bits : Word} (hbits : c.stopBits = .ok bits) :
    Control.has bits Control.run = false := by
  obtain ⟨state, finished⟩ := c
  cases state with
  | idle => cases hbits
  | programmed =>
    cases finished with
    | none => cases hbits
    | some stop =>
      cases hbits
      rcases h with ⟨rfl, -⟩ | ⟨rfl, -⟩ <;> rfl
  | _ =>
    cases hbits
    rfl

/-- A run that is seen to end leaves its run bits on the wire. -/
lemma Agrees.finish (h : c.Agrees wires) : c.finish.Agrees wires := by
  obtain ⟨state, finished⟩ := c
  cases state with
  | runningSingle =>
    cases finished with
    | none => exact .inl ⟨rfl, h⟩
    | some stop => exact h.elim
  | runningCounted n =>
    cases finished with
    | none => exact .inr ⟨rfl, h.1⟩
    | some stop => exact h.elim
  | _ => exact h

/-- A launch leaves its bits in the sequencer field. -/
lemma field_launching (bits : Word) (ps : List Primitive) :
    Primitive.writeAll wires (ps ++ launching bits) Endpoint.control &&& Control.sequencer =
      bits &&& Control.sequencer := by
  simp [launching, Word.masked_and_self]

/-- The repetitions that were told are not changed by the launch. -/
lemma repetitions_repeating (repetitions bits : Word) (ps : List Primitive) :
    Primitive.writeAll wires (ps ++ repeating repetitions ++ launching bits)
      Endpoint.repetitions = repetitions := by
  have hne : Endpoint.repetitions ≠ Endpoint.control := by decide
  simp [repeating, launching, hne]

/-- A number of repetitions that is accepted has 16 bits and is not zero. -/
lemma le_of_checkRepetitions {count : Nat} {n : UInt16} (h : checkRepetitions count = .ok n) :
    1 ≤ n.toNat ∧ n.toNat ≤ 65535 := by
  unfold checkRepetitions at h
  split at h
  case isTrue hcount =>
    cases h
    have htoNat : (UInt16.ofNat count).toNat = count := by
      rw [UInt16.toNat_ofNat', Nat.mod_eq_of_lt (by omega)]
    omega
  case isFalse => cases h

/-- The fields that tell of a run: the sequencer field and the repetitions. -/
def runFields : List (Address × Word) :=
  [(Endpoint.control, Control.sequencer), (Endpoint.repetitions, Word.all)]

/-- What is written apart from these fields leaves controller and wires in agreement. -/
lemma Agrees.of_writeOnly (h : c.Agrees wires) {fields : List (Address × Word)}
    {ps : List Primitive} (hps : Primitive.WriteOnly fields ps)
    (hapart : Primitive.Apart fields runFields) : c.Agrees (Primitive.writeAll wires ps) :=
  h.congr (hps.field_eq hapart (by simp [runFields]) wires)
    (hps.word_eq hapart (by simp [runFields]) wires)

/-- A readout does not change the agreement. -/
lemma Agrees.asking (h : c.Agrees wires) (select : Readout) :
    c.Agrees (Primitive.writeAll wires (Wire.asking select)) :=
  h.of_writeOnly (Wire.writeOnly_asking select) (by decide)

/-- Whatever a command does keeps controller and wires in agreement. -/
lemma Does.agrees {command : Command} {ps : List Primitive} (hdoes : c.Does command ps c')
    (h : c.Agrees wires) : c'.Agrees (Primitive.writeAll wires ps) := by
  cases hdoes with
  | program p hstate =>
    -- the run bits of a run that finished stay on the wire, and the controller keeps its stop bits
    obtain ⟨state, finished⟩ := c
    cases state with
    | idle =>
      cases finished with
      | none => exact h
      | some stop => exact h.elim
    | programmed => exact h
    | _ => cases hstate
  | startSingle _ => exact field_launching _ _
  | startInfinite _ => exact ⟨field_launching _ _, repetitions_repeating _ _ _⟩
  | startCounted _ hcount =>
    exact ⟨field_launching _ _, repetitions_repeating _ _ _, le_of_checkRepetitions hcount⟩
  | complete hstate =>
    obtain ⟨state, finished⟩ := c
    cases hstate
    cases finished with
    | none =>
      simp only [Agrees, Primitive.writeAll_setWire, Primitive.writeAll_commit,
        Primitive.writeAll_nil, setAt_same, Word.masked_and_self]
      rfl
    | some stop => exact h.elim
  | @stop bits hbits =>
    simp only [Agrees, idle, halting, Primitive.writeAll_trigger, Primitive.writeAll_setWire,
      Primitive.writeAll_commit, Primitive.writeAll_nil, setAt_same, Word.masked_and_self]
    rw [Control.has_run_field]
    exact h.has_run_stopBits hbits
  | pollDone done =>
    cases done with
    | false => exact h.asking .done
    | true => exact h.finish.asking .done
  | repetitions _ _ => exact h.asking .repetitions

end Controller

/-! ## Starts -/

/-- The run bit rises once during operations, after a reset of the counter that finds it low. -/
structure Board.StartsOnce (b : Board) (ps : List Primitive) : Prop where
  once : b.rises ps = 1
  after_reset : ∃ qs rs, ps = qs ++ .trigger Endpoint.trigger Pulse.resetCounter :: rs ∧
    (b.replay qs).running = false ∧
      ((b.replay qs).carry (.trigger Endpoint.trigger Pulse.resetCounter)).rises rs = 1

/-- If nothing is staged, the next commit leaves the run bit. -/
lemma Board.Settled.willRun_eq {b : Board} (h : b.Settled) : b.willRun = b.running := by
  rw [willRun, h.pending_eq]
  rfl

namespace Controller

variable {b : Board} {c c' : Controller}

/-- The last part of a start raises the run bit, once. -/
lemma startsOnce_launching {pre : List Primitive} {bits : Word} (hpre : b.rises pre = 0)
    (hlow : (b.replay pre).running = false) (hbits : Control.has bits Control.run = true) :
    b.StartsOnce (pre ++ launching bits) := by
  have hreset : ((b.replay pre).carry (.trigger Endpoint.trigger Pulse.resetCounter)).running =
      false := (Board.running_carry Primitive.noConfusion _).trans hlow
  have hrise : ((b.replay pre).carry (.trigger Endpoint.trigger Pulse.resetCounter)).rises
      [.setWire Endpoint.control bits Control.sequencer, .commit] = 1 := by
    have hcommit : (((b.replay pre).carry (.trigger Endpoint.trigger Pulse.resetCounter)).replay
        [.setWire Endpoint.control bits Control.sequencer, .commit]).running = true := by
      rw [Board.replay_cons, Board.replay_cons, Board.replay_nil, Board.running_commit,
        Board.willRun_setWire_control]
      exact hbits
    rw [Board.rises_write, if_pos ⟨hreset, hcommit⟩]
  refine ⟨?_, pre, _, rfl, hlow, hrise⟩
  rw [Board.rises_append, hpre, launching, Board.rises, hrise, hreset]
  simp

/-- A start first clears what a finished run left, which raises nothing. -/
lemma rises_clearing (hagrees : c.Agrees b.wires) (hstate : c.state = .programmed) :
    b.rises c.clearing = 0 ∧ (b.replay c.clearing).running = false := by
  obtain ⟨state, finished⟩ := c
  cases hstate
  cases finished with
  | none =>
    refine ⟨rfl, ?_⟩
    change Control.has (b.wires Endpoint.control) Control.run = false
    rw [← Control.has_run_field]
    exact hagrees
  | some stop =>
    have hlow : (b.replay (clearing ⟨.programmed, some stop⟩)).running = false := by
      rw [clearing, Board.replay_cons, Board.replay_cons, Board.replay_nil, Board.running_commit,
        Board.willRun_setWire_control]
      exact hagrees.has_run_stopBits rfl
    refine ⟨?_, hlow⟩
    rw [clearing, Board.rises_write, if_neg]
    exact fun h => Bool.false_ne_true (hlow.symm.trans h.2)

/-- To tell the repetitions does not raise the run bit. -/
lemma rises_repeating (hb : b.Settled) (hlow : b.running = false) (repetitions : Word) :
    b.rises (repeating repetitions) = 0 ∧ (b.replay (repeating repetitions)).running = false := by
  have hkept : (b.replay (repeating repetitions)).running = false := by
    rw [repeating, Board.replay_cons, Board.replay_cons, Board.replay_nil, Board.running_commit,
      Board.willRun_setWire_of_ne _ (by decide), hb.willRun_eq]
    exact hlow
  refine ⟨?_, hkept⟩
  rw [repeating, Board.rises_write, if_neg]
  exact fun h => Bool.false_ne_true (hkept.symm.trans h.2)

/-- An accepted start raises the run bit once, after a reset of the counter. -/
lemma Does.startsOnce {command : Command} {ps : List Primitive} (hdoes : c.Does command ps c')
    (hstarts : command.starts = true) (hb : b.Settled) (hagrees : c.Agrees b.wires) :
    b.StartsOnce ps := by
  -- the run bit is low once a finished run is cleared, and nothing raises it before the launch
  have looped (hstate : c.state = .programmed) (repetitions : Word) :
      b.StartsOnce (c.clearing ++ repeating repetitions ++ launching Control.startLooped) := by
    obtain ⟨hrises, hlow⟩ := rises_clearing hagrees hstate
    have hsettled : (b.replay c.clearing).Settled := hb.replay (settles_clearing c)
    obtain ⟨hrises', hlow'⟩ := rises_repeating hsettled hlow repetitions
    refine startsOnce_launching ?_ ?_ rfl
    · rw [Board.rises_append, hrises, hrises']
    · rw [Board.replay_append]
      exact hlow'
  cases hdoes with
  | startSingle hstate =>
    obtain ⟨hrises, hlow⟩ := rises_clearing hagrees hstate
    exact startsOnce_launching hrises hlow rfl
  | startInfinite hstate => exact looped hstate _
  | startCounted hstate _ => exact looped hstate _
  | _ => cases hstarts

end Controller

/-! ## Runs -/

namespace Host

variable {h h' : Host} {wires : Address → Word}

/-- A switch does not write the fields that tell of a run. -/
lemma apart_switching (index : UInt8) :
    Primitive.Apart [(Endpoint.manual, BitVec.twoPow 32 index.toNat),
      (Endpoint.level, BitVec.twoPow 32 index.toNat)] Controller.runFields := by
  have hmanual : Endpoint.manual ≠ Endpoint.control ∧ Endpoint.manual ≠ Endpoint.repetitions := by
    decide
  have hlevel : Endpoint.level ≠ Endpoint.control ∧ Endpoint.level ≠ Endpoint.repetitions := by
    decide
  simp [Primitive.Apart, Controller.runFields, hmanual, hlevel]

/-- What a command does as a task is what it does on the controller. -/
lemma Does.of_sequencer {command : Controller.Command} {ps : List Primitive}
    (hdoes : h.Does (.sequencer command) ps h') : h.controller.Does command ps h'.controller := by
  cases hdoes with
  | sequencer hdoes => exact hdoes

/-- Whatever a task does keeps controller and wires in agreement. -/
theorem Does.agrees {task : Task} {ps : List Primitive} (hdoes : h.Does task ps h')
    (hagrees : h.controller.Agrees wires) :
    h'.controller.Agrees (Primitive.writeAll wires ps) := by
  cases hdoes with
  | sequencer hdoes => exact hdoes.agrees hagrees
  | counting hdoes => exact hagrees.of_writeOnly hdoes.writeOnly (by decide)
  | readout select => exact hagrees.asking select
  | @switchLine index _ _ =>
    exact hagrees.of_writeOnly (writeOnly_switching index _) (apart_switching index)
  | @timetags ps hps =>
    change h.controller.Agrees (Primitive.writeAll wires ps)
    exact hagrees.of_writeOnly hps.writeOnly (by decide)
  | resetTimetags => exact hagrees

/-- What happens at an attached board: a task, or something from outside. -/
inductive Turn where
  | task (task : Task)
  /-- The board shows whether it has finished, and the repetitions completed. -/
  | shows (done : Bool) (repetitions : Word)
  /-- Bytes arrive in a pipe out of the board. -/
  | receives (address : Address) (bytes : List Byte)

/-- What a transaction holds after a turn; what a task that failed did until then stays. -/
def Turn.apply (k : Held Host) : Turn → Held Host
  | task t => after t.work k
  | shows done repetitions =>
    { k with bus := k.bus.onBoard fun b => (b.setDone done).setRepetitions repetitions }
  | receives address bytes => { k with bus := k.bus.onBoard (·.pushPipe address bytes) }

/-- What a transaction holds after turns in order. -/
def turns (k : Held Host) (ts : List Turn) : Held Host := ts.foldl Turn.apply k

/-- A new controller at a board in its slot, with cleared wires and no fault in wait. -/
structure Cleared (k : Held Host) : Prop where
  controller : k.state.controller = .idle
  present : k.bus.board.present = true
  fault : k.bus.fault = none
  wires : ∀ address, k.bus.board.wires address = 0
  settled : k.bus.board.Settled

/-- Controller and wires agree at a board in its slot, with nothing that waits. -/
structure InStep (k : Held Host) : Prop where
  present : k.bus.board.present = true
  fault : k.bus.fault = none
  settled : k.bus.board.Settled
  agrees : k.state.controller.Agrees k.bus.board.wires

/-- Controller and wires agree in the beginning. -/
lemma Cleared.inStep {k : Held Host} (hk : Cleared k) : InStep k := by
  refine ⟨hk.present, hk.fault, hk.settled, ?_⟩
  rw [hk.controller]
  change Control.has (k.bus.board.wires Endpoint.control &&& Control.sequencer) Control.run = false
  rw [hk.wires]
  rfl

/-- Every task keeps controller and wires in agreement. -/
lemma InStep.task {k : Held Host} (hk : InStep k) (t : Task) : InStep (after t.work k) := by
  cases hr : t.work k with
  | ok u k' =>
    rw [after_of_ok hr]
    obtain ⟨ps, hdoes, hcarries⟩ := (t.follows k.state).of_ok hr
    have hboard := hcarries.board
    have hsettled : (k.bus.board.replay ps).Settled := hk.settled.replay hdoes.settles
    refine ⟨?_, hcarries.fault_none hk.fault, hboard ▸ hsettled, ?_⟩
    · rw [hboard, Board.present_replay]
      exact hk.present
    · rw [hboard, hk.settled.wires_replay hsettled]
      exact hdoes.agrees hk.agrees
  | error e k' =>
    rw [after_of_error hr]
    rcases (t.follows k.state).of_error hr with rfl | ⟨ps, -, hfails⟩
    · exact hk
    · -- without a fault in wait only a board out of its slot lets an operation fail
      have habsent := (hfails.absent hk.fault).1
      rw [hk.present] at habsent
      cases habsent

/-- Every turn keeps controller and wires in agreement. -/
lemma InStep.turn {k : Held Host} (hk : InStep k) (t : Turn) : InStep (t.apply k) := by
  cases t with
  | task t => exact hk.task t
  | shows done repetitions => exact ⟨hk.present, hk.fault, hk.settled, hk.agrees⟩
  | receives address bytes => exact ⟨hk.present, hk.fault, hk.settled, hk.agrees⟩

/-- Turns keep controller and wires in agreement. -/
lemma InStep.turns {k : Held Host} (hk : InStep k) (ts : List Turn) : InStep (turns k ts) := by
  induction ts generalizing k with
  | nil => exact hk
  | cons t ts ih => exact ih (hk.turn t)

/-- In every state of a run that loses no operation, controller and wires agree; a stop is accepted
exactly while the run bit is set; and every accepted start raises the run bit once, after a reset of
the counter that finds it low. -/
theorem turns_agree {k : Held Host} (hk : Cleared k) (ts : List Turn) :
    (turns k ts).state.controller.Agrees (turns k ts).bus.board.wires ∧
      ((∃ k', (Task.sequencer .stop).work (turns k ts) = .ok () k') ↔
        (turns k ts).bus.board.running = true) ∧
      ∀ (command : Controller.Command) (k' : Held Host), command.starts = true →
        (Task.sequencer command).work (turns k ts) = .ok () k' →
          ∃ ps, k'.bus.board = (turns k ts).bus.board.replay ps ∧
            (turns k ts).bus.board.StartsOnce ps := by
  have hstep := hk.inStep.turns ts
  refine ⟨hstep.agrees, ?_, fun command k' hstarts hok => ?_⟩
  · change _ ↔ Control.has _ Control.run = true
    rw [← hstep.agrees.stopBits_iff]
    constructor
    · rintro ⟨k', hok⟩
      obtain ⟨ps, hdoes, -⟩ := (Task.follows (.sequencer .stop) _).of_ok hok
      exact hdoes.of_sequencer.stopBits
    · rintro ⟨bits, hbits⟩
      obtain ⟨_, k', hok⟩ := ((Task.follows (.sequencer .stop) _).ok_iff hstep.fault
        hstep.present).mpr ⟨_, _, .sequencer (.stop hbits)⟩
      exact ⟨k', hok⟩
  · obtain ⟨ps, hdoes, hcarries⟩ := (Task.follows (.sequencer command) _).of_ok hok
    exact ⟨ps, hcarries.board,
      hdoes.of_sequencer.startsOnce hstarts hstep.settled hstep.agrees⟩

/-- A counted run that is seen to end. -/
def countedRun : List Turn :=
  [.task (.sequencer (.program ⟨[0, 0x10, 10, 0, 0, 0, 0], 10⟩)),
    .task (.sequencer (.startCounted 3)), .shows true 3, .task (.sequencer .pollDone)]

/-- After it the controller keeps the stop bits of a looped run, as the wire still has its run
bits. -/
theorem counted_run_agrees :
    ∃ k, Cleared k ∧
      (turns k countedRun).state.controller = ⟨.programmed, some Control.stopLooped⟩ ∧
      (turns k countedRun).state.controller.Agrees (turns k countedRun).bus.board.wires := by
  have hcleared : Cleared ⟨⟨.idle, default, .empty⟩, .new .new⟩ :=
    ⟨rfl, rfl, rfl, fun _ => rfl, fun _ => rfl⟩
  exact ⟨_, hcleared, by decide +kernel, (turns_agree hcleared countedRun).1⟩

end Host

end PulseSequencer
