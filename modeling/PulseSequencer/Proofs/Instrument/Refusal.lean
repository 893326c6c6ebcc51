import PulseSequencer.Proofs.Instrument.Mirror

/-!
# Refused requests

A request that returns an error other than a failure of the bus was refused: no operation was even
tried on the bus, and all is as it was. Every check of a task comes before its first operation and
its first change, so that it is refused in the same way on every bus.

* `Instrument.Withdraws`: an operation that returns another error was refused, with a rule for each
  way in which operations are put together.
* `Instrument.Request`: what callers ask of an instrument, and `Instrument.Request.withdraws`.
* `Instrument.Request.untouched_of_error`: the law, for every state of an instrument;
  `Instrument.untouched_by_upload` is a case of it.
-/

namespace PulseSequencer

/-! ## Work on an attached board -/

/-- If `x` fails on some bus, but not because of it, `x` fails on every bus and leaves all as it
was. -/
def Action.Withdraws {σ α : Type} (x : Action σ α) (s : σ) : Prop :=
  ∀ bus e h, x ⟨s, bus⟩ = .error e h → ¬e.OfBus →
    h = ⟨s, bus⟩ ∧ ∀ bus', x ⟨s, bus'⟩ = .error e ⟨s, bus'⟩

section
variable {σ α : Type} {x : Action σ α} {s : σ}

/-- Work that is refused, or fails with an operation only. -/
lemma Follows.withdraws {D F : List Primitive → σ → Prop} (hx : Follows x s D F) :
    x.Withdraws s := by
  intro bus e h herror hbus
  rcases hx with ⟨⟨e', he'⟩, -⟩ | hx
  · cases (he' bus).symm.trans herror
    exact ⟨rfl, he'⟩
  · obtain ⟨_, _, hfails⟩ := hx.of_error herror
    exact absurd hfails.ofBus hbus

/-- An action is refused as it is without its answer. -/
lemma Action.Withdraws.of_discard (hx : Action.Withdraws (do let _ ← x) s) : x.Withdraws s := by
  have errors (bus : Bus) (e : Error) (h : Held σ) :
      (do let _ ← x : Action σ Unit) ⟨s, bus⟩ = .error e h ↔ x ⟨s, bus⟩ = .error e h := by
    cases hx : x ⟨s, bus⟩ with
    | ok a h' => rw [bind_of_ok hx]; exact ⟨nofun, nofun⟩
    | error e' h' => rw [bind_of_error hx]; simp
  intro bus e h herror hbus
  obtain ⟨hh, hall⟩ := hx bus e h ((errors bus e h).mpr herror) hbus
  exact ⟨hh, fun bus' => (errors bus' e _).mp (hall bus')⟩

end

namespace Instrument

variable {α β : Type} {i : Instrument}

/-- The instrument with its board or bus changed from outside. -/
def onBus (i : Instrument) (change : Bus → Bus) : Instrument :=
  { i with link := i.link.onBus change }

/-- If `x` fails, but not because of the bus, `x` fails on every bus and leaves all as it was. -/
def Withdraws (x : Operation α) (i : Instrument) : Prop :=
  ∀ e i', x i = .error e i' → ¬e.OfBus →
    i' = i ∧ ∀ change, x (i.onBus change) = .error e (i.onBus change)

namespace Withdraws

/-- An operation that succeeds is not refused. -/
lemma of_ok {x : Operation α} (h : ∃ a i', x i = .ok a i') : Withdraws x i := by
  obtain ⟨a, i', hok⟩ := h
  intro e i'' herror
  rw [hok] at herror
  cases herror

/-- A value, or an error in place of one, does not depend on the bus. -/
lemma ofExcept (r : Except Error α) : Withdraws (Instrument.ofExcept r) i := by
  intro e i' herror _
  cases r with
  | ok a => cases herror
  | error e' =>
    cases herror
    exact ⟨rfl, fun _ => rfl⟩

/-- What is refused without asking the link. -/
lemma ofExcept_bind {r : Except Error α} {f : α → Operation β}
    (hf : ∀ a, r = .ok a → Withdraws (f a) i) : Withdraws (Instrument.ofExcept r >>= f) i := by
  cases r with
  | error e => exact ofExcept (.error e)
  | ok a => exact hf a rfl

/-- The state of the instrument may decide what to do, as far as it is not the bus. -/
lemma get_bind {f : Instrument → Operation β} (same : ∀ change, f (i.onBus change) = f i)
    (hf : Withdraws (f i) i) : Withdraws (get >>= f) i := by
  intro e i' herror hbus
  obtain ⟨hi', hall⟩ := hf e i' herror hbus
  refine ⟨hi', fun change => ?_⟩
  show f (i.onBus change) (i.onBus change) = _
  rw [same, hall]

/-- An operation, and then something that succeeds. -/
lemma bind {x : Operation α} {f : α → Operation β} (hx : Withdraws x i)
    (hf : ∀ a j, ∃ b j', f a j = .ok b j') : Withdraws (x >>= f) i := by
  intro e i' herror hbus
  cases hr : x i with
  | ok a j =>
    obtain ⟨b, j', hok⟩ := hf a j
    cases ((bind_of_ok hr f).trans hok).symm.trans herror
  | error e' j =>
    cases (bind_of_error hr f).symm.trans herror
    obtain ⟨hi', hall⟩ := hx e i' hr hbus
    exact ⟨hi', fun change => bind_of_error (hall change) f⟩

/-- An operation is refused as it is without its answer. -/
lemma discard {x : Operation α} (hx : Withdraws x i) : Withdraws (do let _ ← x) i :=
  hx.bind fun _ j => ⟨(), j, rfl⟩

/-- A transaction is refused if no board is attached, or if its work is. -/
lemma transaction {work : Action Host α} (hwork : work.Withdraws i.host) :
    Withdraws (Instrument.transaction work) i := by
  intro e i' herror hbus
  obtain ⟨⟨attached, connector, ⟨state, bus⟩⟩, registry, config, listeners⟩ := i
  cases attached with
  | false =>
    cases herror
    exact ⟨rfl, fun _ => rfl⟩
  | true =>
    simp only [Instrument.transaction, onLink, Link.transaction, if_true] at herror
    cases hr : work ⟨state, bus⟩ with
    | ok a held =>
      rw [hr] at herror
      cases herror
    | error e' held =>
      rw [hr] at herror
      cases herror
      obtain ⟨rfl, hall⟩ : held = ⟨state, bus⟩ ∧
          ∀ bus', work ⟨state, bus'⟩ = .error e ⟨state, bus'⟩ :=
        hwork bus e held hr hbus
      have stays : e.isDisconnection = false :=
        Bool.eq_false_iff.mpr fun h => hbus (Error.ofBus_of_isDisconnection h)
      refine ⟨by rw [stays]; rfl, fun change => ?_⟩
      simp only [Instrument.transaction, onLink, Link.transaction, onBus, Link.onBus, if_true,
        hall (change bus), stays, Bool.not_false]

/-- A transaction that does a task is refused, or fails on the bus. -/
lemma task (task : Host.Task) : Withdraws (Instrument.transaction task.work) i :=
  transaction (task.follows i.host).withdraws

/-- A transaction whose answer the task leaves out. -/
lemma task_of_discard {x : Action Host α} (task : Host.Task) (hwork : task.work = do let _ ← x) :
    Withdraws (Instrument.transaction x) i := by
  have follows := task.follows i.host
  rw [hwork] at follows
  exact transaction follows.withdraws.of_discard

/-- A switch is refused, or fails on the bus. -/
lemma switchLine (channel : String) (update : LineState → LineState) :
    Withdraws (Instrument.switchLine channel update) i := by
  refine get_bind (fun _ => rfl) (ofExcept_bind fun index _ => ?_)
  exact task_of_discard (.switchLine index update) rfl

/-- A change of the collection time is refused, or fails on the bus. -/
lemma setCollectionTime (seconds : Float) (mode : CollectionMode) :
    Withdraws (Instrument.setCollectionTime seconds mode) i := by
  refine get_bind (fun _ => rfl) (ofExcept_bind fun _ _ => ?_)
  cases mode with
  | normal => exact task (.counting (.setNormalTime seconds))
  | differential =>
    exact get_bind (fun _ => rfl) (ofExcept_bind fun _ _ => of_ok ⟨_, _, rfl⟩)

/-- An attempt to connect fails because of the bus only, if the lines are lines of the board. -/
lemma connect {r : LineRegister} (hr : i.host.lines.register = .ok r) :
    Withdraws Instrument.connect i := by
  intro e i' herror hbus
  obtain ⟨⟨attached, connector, ⟨state, bus⟩⟩, registry, config, listeners⟩ := i
  cases attached with
  | true => cases herror
  | false =>
    simp only [Instrument.connect, onLink, Link.connect, Bool.false_eq_true, if_false] at herror
    by_cases hpresent : bus.board.present = true
    · rw [if_pos hpresent] at herror
      cases hinit : Host.initialise ⟨state, bus⟩ with
      | ok u held =>
        rw [hinit] at herror
        cases herror
      | error e' held =>
        rw [hinit] at herror
        cases herror
        rcases Host.follows_initialise state with ⟨-, hnone⟩ | hbrings
        · exact absurd ⟨r, hr, rfl, rfl⟩ (hnone _ _)
        · obtain ⟨_, _, hfails⟩ := hbrings.of_error hinit
          exact absurd hfails.ofBus hbus
    · rw [if_neg hpresent] at herror
      cases herror
      exact absurd ⟨.reported _, rfl⟩ hbus

end Withdraws

/-! ## Requests -/

/-- A command is refused, or fails on the bus, if the lines fit the wires. -/
lemma Command.withdraws {r : LineRegister} (hr : i.host.lines.register = .ok r) (c : Command) :
    Withdraws c.work i := by
  cases c with
  | connect => exact .connect hr
  | program p => exact .task (.sequencer (.program p))
  | programSequence s => exact .ofExcept_bind fun p _ => .task (.sequencer (.program p))
  | startSingle => exact .task (.sequencer .startSingle)
  | startInfinite => exact .task (.sequencer .startInfinite)
  | startCounted count => exact .ofExcept_bind fun _ _ => .task (.sequencer (.startCounted count))
  | complete => exact .task (.sequencer .complete)
  | stop => exact .task (.sequencer .stop)
  | repetitions =>
    exact .discard (.task_of_discard (.sequencer .repetitions) (Host.onController_discard _))
  | pollDone =>
    exact .discard (.task_of_discard (.sequencer .pollDone) (Host.onController_discard _))
  | counts readTime =>
    exact .discard (.task_of_discard (.counting (.drain readTime)) (Host.onCounting_discard _))
  | resetCounts => exact .task (.counting .resetFifo)
  | setMode mode => exact .task (.counting (.setMode mode))
  | setCollectionTime seconds mode => exact .setCollectionTime seconds mode
  | timetags => exact .discard (.task_of_discard .timetags rfl)
  | resetTimetags => exact .task .resetTimetags
  | switchManual origin channel level => exact .bind (.switchLine channel _) fun _ j => ⟨_, _, rfl⟩
  | switchAuto origin channel inverted => exact .bind (.switchLine channel _) fun _ j => ⟨_, _, rfl⟩
  | disconnect | openSession | closeSession | takeNotice | takeNotices =>
    exact .of_ok ⟨_, _, rfl⟩

/-- What callers ask of an instrument: a command, or the state of a line. -/
inductive Request where
  | command (c : Command)
  | lineState (channel : String)

namespace Request

/-- The work of a request; what it answers is left out. -/
def work : Request → Operation Unit
  | command c => c.work
  | lineState channel => do
    let i ← get
    let _ ← ofExcept (i.lineState channel)

/-- A request is refused, or fails on the bus, if the lines fit the wires. -/
lemma withdraws {r : LineRegister} (hr : i.host.lines.register = .ok r) (q : Request) :
    Withdraws q.work i := by
  cases q with
  | command c => exact c.withdraws hr
  | lineState channel => exact .get_bind (fun _ => rfl) (.discard (.ofExcept _))

/-- A request that returns an error other than a transport failure has left the instrument as it
was, and does the same on every bus: neither the board nor a fault in wait had a part in it. That
whoever carried out an operation is gone is no error that is returned. -/
theorem untouched_of_error {i' : Instrument} (hi : Reachable i) {q : Request} {e : Error}
    (h : q.work i = .error e i') (transport : ∀ f, e ≠ .transport f) (killed : e ≠ .trap .killed) :
    i' = i ∧ ∀ change : Bus → Bus, q.work (i.onBus change) = .error e (i.onBus change) := by
  obtain ⟨r, hr⟩ := LineTable.exists_register hi.sound.host.lines
  refine q.withdraws hr e i' h fun hbus => ?_
  rcases Error.ofBus_iff.mp hbus with ⟨f, hf⟩ | hkilled
  · exact transport f hf
  · exact killed hkilled

end Request

/-- The instrument of a board with a lamp, on which a program runs without end. -/
def flashing : Instrument :=
  (after connect (unopened lampConfiguration ⟨[.auto "lamp" 3], []⟩ "board" (.new .new))).run
    [.command (.program ⟨[], 1⟩), .command .startInfinite]

set_option maxRecDepth 20000 in
/-- A program is refused while another one runs. -/
theorem untouched_by_upload :
    Reachable flashing ∧ ∃ i',
      (Request.command (.program ⟨[], 2⟩)).work flashing =
        .error (.busy (.sequencer .runningInfinite)) i' ∧
      i' = flashing ∧ ∀ change : Bus → Bus,
        (Request.command (.program ⟨[], 2⟩)).work (flashing.onBus change) =
          .error (.busy (.sequencer .runningInfinite)) (flashing.onBus change) := by
  have hi : Reachable flashing := .run (.opened opened_lamp) _
  have h : (Request.command (.program ⟨[], 2⟩)).work flashing =
      .error (.busy (.sequencer .runningInfinite)) flashing := rfl
  exact ⟨hi, flashing, h, Request.untouched_of_error hi h nofun nofun⟩

end Instrument

end PulseSequencer
