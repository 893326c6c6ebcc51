import PulseSequencer.Proofs.Instrument.Sound
import PulseSequencer.Proofs.Instrument.Task

/-!
# What commands do to the link

Whatever a caller asks for, one of five things happens to the link of the instrument: nothing is
done with the board, a collection time is kept that the board has no part in, a board is attached, a
task is done, or an operation fails. A property of the link has to be shown for these, and not for
every command.

* `Host.Task.Within`: a condition on the line that a task switches, if any.
* `Instrument.Effect`: what may happen to a link; `Instrument.Effect.only`, that no other failures
  come to lie in wait, and `Instrument.Effect.lines_eq`, that other lines stay as they are.
* `Link.effect_connect`, `Link.effect_transaction`: what an attempt to connect does, and a task.
* `Instrument.Command.affects_within`, `Instrument.Command.affects`: what a command does.
* `Instrument.Command.task_of_starts`: a start that succeeds is a task on the attached board.
-/

namespace PulseSequencer

namespace Host

/-- If the task switches a line, it is one of `A`. -/
def Task.Within (A : UInt8 → Prop) : Task → Prop
  | switchLine index _ => A index
  | _ => True

/-- A task that switches no line, or another one, leaves the line as it is. -/
lemma Does.lines_eq {h h' : Host} {index : UInt8} {task : Task} {ps : List Primitive}
    (hdoes : h.Does task ps h') (hwithin : task.Within (· ≠ index)) :
    h'.lines index = h.lines index := by
  cases hdoes with
  | switchLine _ update => exact if_neg (Ne.symm hwithin)
  | _ => rfl

/-- An action of the sequencer has the same effect on the host if its answer is not used. -/
lemma onController_discard {α : Type} (x : Action Controller α) :
    onController (do let _ ← x) = (do let _ ← onController x) := Action.focus_discard _ _ x

/-- An action of the counters has the same effect on the host if its answer is not used. -/
lemma onCounting_discard {α : Type} (x : Action Counting α) :
    onCounting (do let _ ← x) = (do let _ ← onCounting x) := Action.focus_discard _ _ x

end Host

/-- What may happen to the link `l` of an instrument, so that it becomes `l'`, if only lines of `A`
are switched. -/
inductive Instrument.Effect (A : UInt8 → Prop) (l l' : Link Host) : Prop where
  /-- Nothing is done with the board, except that it may be detached. -/
  | nothing (held : l'.held = l.held) (attached : l'.attached = true → l.attached = true)
  /-- A collection time of differential mode is kept. -/
  | stored {seconds : Float} {counting : Counting}
      (store : l.state.counting.store seconds .differential = .ok counting)
      (state : l'.state = { l.state with counting }) (bus : l'.bus = l.bus)
      (attached : l'.attached = l.attached)
  /-- A board is attached once it was brought to the host's state. -/
  | attached {r : LineRegister} (detached : l.attached = false) (attached : l'.attached = true)
      (register : l.state.lines.register = .ok r)
      (state : l'.state = { l.state with controller := .idle })
      (carries : l.bus.Carries (l.state.initialising r) l'.bus)
  /-- A task is done on the attached board. -/
  | did {task : Host.Task} {ps : List Primitive} (known : task.Within A)
      (attached : l.attached = true) (does : l.state.Does task ps l'.state)
      (carries : l.bus.Carries ps l'.bus)
  /-- An operation fails; if it does because the board was lost, none is attached afterwards. -/
  | failed {ps : List Primitive} {e : Error} (fails : l.bus.Fails ps e l'.bus)
      (left : l.state.Interrupted ps l'.state)
      (attached : l'.attached = true → l.attached = true ∧ e.isDisconnection = false)

/-- Failures that lie in wait on the bus were there before. -/
lemma Instrument.Effect.only {A : UInt8 → Prop} {l l' : Link Host} (h : Effect A l l')
    {B : Failure → Prop} (hB : B (.reported .disconnected)) (honly : l.bus.Only B) :
    l'.bus.Only B := by
  cases h with
  | nothing hheld _ =>
    rw [Link.bus, hheld]
    exact honly
  | stored _ _ hbus _ =>
    rw [hbus]
    exact honly
  | attached _ _ _ _ hcarries => exact hcarries.only honly
  | did _ _ _ hcarries => exact hcarries.only honly
  | failed hfails _ _ =>
    obtain ⟨_, -, -, honly'⟩ := hfails.only hB honly
    exact honly'

/-- If another line is switched or none, a line stays as it is. -/
lemma Instrument.Effect.lines_eq {index : UInt8} {l l' : Link Host}
    (h : Effect (· ≠ index) l l') : l'.state.lines index = l.state.lines index := by
  cases h with
  | nothing hheld _ => exact congrArg (fun held => held.state.lines index) hheld
  | stored _ hstate _ _ => rw [hstate]
  | attached _ _ _ hstate _ => rw [hstate]
  | did hwithin _ hdoes _ => exact hdoes.lines_eq hwithin
  | failed _ hleft _ => exact congrFun hleft.lines index

namespace Link

open Instrument

/-- An attempt to connect does nothing, or attaches a board, or fails on the way. -/
lemma effect_connect (A : UInt8 → Prop) (l : Link Host) :
    Effect A l (after (connect Host.initialise) l) := by
  obtain ⟨attached, connector, ⟨state, bus⟩⟩ := l
  cases attached with
  | true => exact .nothing rfl id
  | false =>
    by_cases hpresent : bus.board.present = true
    · cases hr : Host.initialise ⟨state, bus⟩ with
      | ok u held =>
        obtain ⟨ps, ⟨r, hregister, rfl, hstate⟩, hcarries⟩ :=
          (Host.follows_initialise state).of_ok hr
        simp only [after, connect, Bool.false_eq_true, if_false, if_pos hpresent, hr]
        exact .attached rfl rfl hregister hstate hcarries
      | error e held =>
        simp only [after, connect, Bool.false_eq_true, if_false, if_pos hpresent, hr]
        rcases (Host.follows_initialise state).of_error hr with rfl | ⟨ps, rfl, hfails⟩
        · exact .nothing rfl id
        · exact .failed hfails (Host.interrupted_self ps) fun h => absurd h Bool.false_ne_true
    · simp only [after, connect, Bool.false_eq_true, if_false, if_neg hpresent]
      exact .nothing rfl id

/-- A transaction that does a task has one of these effects. -/
lemma effect_transaction {A : UInt8 → Prop} {task : Host.Task} (h : task.Within A)
    (l : Link Host) : Effect A l (after (transaction task.work) l) := by
  obtain ⟨attached, connector, ⟨state, bus⟩⟩ := l
  cases attached with
  | false => exact .nothing rfl id
  | true =>
    cases hr : task.work ⟨state, bus⟩ with
    | ok u held =>
      obtain ⟨ps, hdoes, hcarries⟩ := (task.follows state).of_ok hr
      simp only [after, transaction, if_true, hr]
      exact .did h rfl hdoes hcarries
    | error e held =>
      simp only [after, transaction, if_true, hr]
      rcases (task.follows state).of_error hr with rfl | ⟨ps, hleft, hfails⟩
      · exact .nothing rfl fun _ => rfl
      · exact .failed hfails hleft fun hattached => ⟨rfl, by simpa using hattached⟩

end Link

namespace Instrument

variable {α β : Type}

/-- What an operation does to the link of an instrument, if only lines of `A` are switched; the
registry and the configuration stay. -/
structure Affects (A : UInt8 → Prop) (x : Operation α) (i : Instrument) : Prop where
  link : Effect A i.link (after x i).link
  registry : (after x i).registry = i.registry
  config : (after x i).config = i.config

namespace Affects

variable {A : UInt8 → Prop} {i : Instrument}

/-- An operation that leaves link, registry and configuration affects nothing. -/
lemma nothing {x : Operation α} (hlink : (after x i).link = i.link)
    (hregistry : (after x i).registry = i.registry) (hconfig : (after x i).config = i.config) :
    Affects A x i := by
  refine ⟨?_, hregistry, hconfig⟩
  rw [hlink]
  exact .nothing rfl id

/-- An operation of the link affects what it does there. -/
lemma onLink {x : Link.Operation Host α} (h : Effect A i.link (after x i.link)) :
    Affects A (Instrument.onLink x) i := by
  refine ⟨?_, by rw [after_onLink], by rw [after_onLink]⟩
  rw [after_onLink]
  exact h

/-- A transaction that does a task affects what the task does. -/
lemma transaction (task : Host.Task) (h : task.Within A) :
    Affects A (Instrument.transaction task.work) i := .onLink (Link.effect_transaction h i.link)

/-- A transaction whose answer the task leaves out. -/
lemma transaction_discard {x : Action Host α} (task : Host.Task) (h : task.Within A)
    (hwork : task.work = do let _ ← x) : Affects A (Instrument.transaction x) i := by
  refine .onLink ?_
  rw [← Link.after_transaction_discard, ← hwork]
  exact Link.effect_transaction h i.link

/-- An operation, and then something that leaves the link alone. -/
lemma bind {x : Operation α} {f : α → Operation β} (hx : Affects A x i)
    (hf : ∀ a j, (after (f a) j).link = j.link ∧ (after (f a) j).registry = j.registry ∧
      (after (f a) j).config = j.config) : Affects A (x >>= f) i := by
  have hafter : (after (x >>= f) i).link = (after x i).link ∧
      (after (x >>= f) i).registry = (after x i).registry ∧
      (after (x >>= f) i).config = (after x i).config := by
    cases hr : x i with
    | error e i' =>
      rw [after_bind_of_error hr, after_of_error hr]
      exact ⟨rfl, rfl, rfl⟩
    | ok a i' =>
      rw [after_bind_of_ok hr, after_of_ok hr]
      exact hf a i'
  refine ⟨?_, hafter.2.1.trans hx.registry, hafter.2.2.trans hx.config⟩
  rw [hafter.1]
  exact hx.link

/-- An operation affects the same if its answer is not used. -/
lemma discard {x : Operation α} (hx : Affects A x i) : Affects A (do let _ ← x) i :=
  hx.bind fun _ _ => ⟨rfl, rfl, rfl⟩

/-- The state of the instrument may decide what is affected. -/
lemma get_bind {f : Instrument → Operation β} (hf : Affects A (f i) i) : Affects A (get >>= f) i :=
  ⟨hf.link, hf.registry, hf.config⟩

/-- What is refused without asking the link leaves it alone. -/
lemma ofExcept_bind {r : Except Error α} {f : α → Operation β}
    (hf : ∀ a, r = .ok a → Affects A (f a) i) : Affects A (ofExcept r >>= f) i := by
  cases r with
  | error e => exact .nothing rfl rfl rfl
  | ok a => exact hf a rfl

/-- A switch affects the line of its channel, if there is one. -/
lemma switchLine {channel : String} (update : LineState → LineState)
    (hA : ∀ index, i.registry.hardwareIndex channel = .ok index → A index) :
    Affects A (Instrument.switchLine channel update) i := by
  refine .get_bind (.ofExcept_bind fun index hindex => ?_)
  exact .transaction_discard (.switchLine index update) (hA index hindex) rfl

/-- A change of the collection time switches no line. -/
lemma setCollectionTime (seconds : Float) (mode : CollectionMode) :
    Affects A (Instrument.setCollectionTime seconds mode) i := by
  refine .get_bind (.ofExcept_bind fun _ _ => ?_)
  cases mode with
  | normal => exact .transaction (.counting (.setNormalTime seconds)) trivial
  | differential =>
    refine .get_bind (.ofExcept_bind fun counting hstore => .onLink ?_)
    exact .stored hstore rfl rfl rfl

end Affects

/-- The channel that a command switches, if it does, and what becomes of its line. -/
def Command.switch : Command → Option (String × (LineState → LineState))
  | switchManual _ channel level => some (channel, heldAt level)
  | switchAuto _ channel inverted => some (channel, drivenWith inverted)
  | _ => none

/-- Every command does one of these things to the link, and switches the line of its channel if it
switches one. -/
lemma Command.affects_within {A : UInt8 → Prop} (c : Command) (i : Instrument)
    (hA : ∀ channel update index, c.switch = some (channel, update) →
      i.registry.hardwareIndex channel = .ok index → A index) : Affects A c.work i := by
  cases c with
  | connect => exact .onLink (Link.effect_connect A i.link)
  | disconnect => exact ⟨.nothing rfl nofun, rfl, rfl⟩
  | program p => exact .transaction (.sequencer (.program p)) trivial
  | programSequence s =>
    exact .ofExcept_bind fun p _ => .transaction (.sequencer (.program p)) trivial
  | startSingle => exact .transaction (.sequencer .startSingle) trivial
  | startInfinite => exact .transaction (.sequencer .startInfinite) trivial
  | startCounted count =>
    exact .ofExcept_bind fun _ _ => .transaction (.sequencer (.startCounted count)) trivial
  | complete => exact .transaction (.sequencer .complete) trivial
  | stop => exact .transaction (.sequencer .stop) trivial
  | repetitions =>
    refine .discard (.transaction_discard (.sequencer .repetitions) trivial ?_)
    exact Host.onController_discard _
  | pollDone =>
    refine .discard (.transaction_discard (.sequencer .pollDone) trivial ?_)
    exact Host.onController_discard _
  | counts readTime =>
    refine .discard (.transaction_discard (.counting (.drain readTime)) trivial ?_)
    exact Host.onCounting_discard _
  | resetCounts => exact .transaction (.counting .resetFifo) trivial
  | setMode mode => exact .transaction (.counting (.setMode mode)) trivial
  | setCollectionTime seconds mode => exact .setCollectionTime seconds mode
  | timetags => exact .discard (.transaction_discard .timetags trivial rfl)
  | resetTimetags => exact .transaction .resetTimetags trivial
  | switchManual origin channel level =>
    exact .bind (.switchLine _ fun index => hA channel _ index rfl) fun _ _ => ⟨rfl, rfl, rfl⟩
  | switchAuto origin channel inverted =>
    exact .bind (.switchLine _ fun index => hA channel _ index rfl) fun _ _ => ⟨rfl, rfl, rfl⟩
  | openSession => exact .nothing rfl rfl rfl
  | closeSession id => exact .nothing rfl rfl rfl
  | takeNotice id => exact .nothing rfl rfl rfl
  | takeNotices id => exact .nothing rfl rfl rfl

/-- Every command does one of these things to the link. -/
theorem Command.affects (c : Command) (i : Instrument) : Affects i.registry.HasLine c.work i :=
  c.affects_within i fun channel _ _ _ hindex => ⟨channel, hindex⟩

/-! ## Starts -/

/-- A transaction that succeeds does so on an attached board, by its work. -/
lemma transaction_of_ok {work : Action Host α} {i i' : Instrument} {a : α}
    (hok : transaction work i = .ok a i') :
    i.link.attached = true ∧ work i.link.held = .ok a i'.link.held := by
  obtain ⟨link, hlink, rfl⟩ := ok_of_onLink hok
  obtain ⟨hattached, held, hwork, rfl⟩ := Link.transaction_of_ok hlink
  exact ⟨hattached, hwork⟩

/-- A start that succeeds is a task on the attached board. -/
lemma Command.task_of_starts {c : Command} (hc : c.starts = true) {i i' : Instrument}
    (hok : c.work i = .ok () i') :
    ∃ command : Controller.Command, command.starts = true ∧ i.link.attached = true ∧
      (Host.Task.sequencer command).work i.link.held = .ok () i'.link.held := by
  cases c with
  | startSingle => exact ⟨.startSingle, rfl, transaction_of_ok hok⟩
  | startInfinite => exact ⟨.startInfinite, rfl, transaction_of_ok hok⟩
  | startCounted count =>
    cases hcount : Controller.checkRepetitions count with
    | error e =>
      simp only [work, Instrument.startCounted, hcount] at hok
      cases hok
    | ok n =>
      simp only [work, Instrument.startCounted, hcount] at hok
      exact ⟨.startCounted count, rfl, transaction_of_ok hok⟩
  | _ => cases hc

end Instrument

end PulseSequencer
