import PulseSequencer.Link
import PulseSequencer.Proofs.Action
import PulseSequencer.Proofs.Bus

/-!
# Work on a board, step by step

The work of a transaction is a function of what the transaction holds. A routine is such work as a
tree: it looks at the host's state and changes it, issues primitive operations, and goes on with
what they answer, an error as well as a reply, until it finishes. Between two of its steps the board
may be unplugged, and a new fault may come to lie in wait, so that any of its operations can fail in
any way.

* `Routine`, `Routine.work`: a routine, and the action that it is.
* `Stepwise`: actions that are routines, with the rules that put them together;
  `Wire.Request.stepwise`, `Link.Script.stepwise`.
* `Routine.exchanges`: what goes over the bus while a routine runs; `Routine.sees_exchanges`.
* `Routine.Calm`: the board stays where it is and no new fault comes in between.
-/

namespace PulseSequencer

/-- Work on a board, step by step, with host state `σ`. -/
inductive Routine (σ α : Type) where
  | finish (result : Except Error α)
  | state (next : σ → Routine σ α)
  | change (f : σ → σ) (next : Routine σ α)
  | issue (p : Primitive) (next : Except Error p.Reply → Routine σ α)
  /-- Something happens to the board or on the way to it. -/
  | outside (e : BusEvent) (next : Routine σ α)

/-- An operation over the bus, with its failure if it failed, or what happened from outside. -/
inductive Exchange where
  | issued (p : Primitive) (failure : Option Error)
  | outside (e : BusEvent)

/-- The failure of an operation, if it failed. -/
def failure {α : Type} : Except Error α → Option Error
  | .ok _ => none
  | .error e => some e

/-- The exchanges are what the bus answers to them, one after the other, and lead to another bus. -/
inductive Bus.Sees : Bus → List Exchange → Bus → Prop where
  | nil (b : Bus) : Sees b [] b
  | issued {b b' : Bus} {es : List Exchange} (p : Primitive) (rest : Sees (b.issue p).2 es b') :
      Sees b (.issued p (failure (b.issue p).1) :: es) b'
  | outside {b b' : Bus} {es : List Exchange} (e : BusEvent) (rest : Sees (e.apply b) es b') :
      Sees b (.outside e :: es) b'

namespace Routine

variable {σ α β : Type}

/-- A routine as an action. -/
def work : Routine σ α → Action σ α
  | finish (.ok a), h => .ok a h
  | finish (.error e), h => .error e h
  | state next, h => (next h.state).work h
  | change f next, h => next.work ⟨f h.state, h.bus⟩
  | issue p next, h => (next (h.bus.issue p).1).work ⟨h.state, (h.bus.issue p).2⟩
  | outside e next, h => next.work ⟨h.state, e.apply h.bus⟩

/-- What goes over the bus while a routine runs. -/
def exchanges : Routine σ α → Held σ → List Exchange
  | finish _, _ => []
  | state next, h => (next h.state).exchanges h
  | change f next, h => next.exchanges ⟨f h.state, h.bus⟩
  | issue p next, h =>
    .issued p (failure (h.bus.issue p).1) ::
      (next (h.bus.issue p).1).exchanges ⟨h.state, (h.bus.issue p).2⟩
  | outside e next, h => .outside e :: next.exchanges ⟨h.state, e.apply h.bus⟩

/-- The bus that a routine leaves is the one to which its exchanges lead. -/
lemma sees_exchanges (r : Routine σ α) (h : Held σ) :
    h.bus.Sees (r.exchanges h) (after r.work h).bus := by
  induction r generalizing h with
  | finish result =>
    cases result with
    | ok a => exact .nil h.bus
    | error e => exact .nil h.bus
  | state next ih => exact ih h.state h
  | change f next ih => exact ih ⟨f h.state, h.bus⟩
  | issue p next ih => exact .issued p (ih (h.bus.issue p).1 ⟨h.state, (h.bus.issue p).2⟩)
  | outside e next ih => exact .outside e (ih ⟨h.state, e.apply h.bus⟩)

/-- A routine, and what follows on its result, be it an error. -/
def andThen : Routine σ α → (Except Error α → Routine σ β) → Routine σ β
  | finish result, f => f result
  | state next, f => state fun s => (next s).andThen f
  | change g next, f => change g (next.andThen f)
  | issue p next, f => issue p fun reply => (next reply).andThen f
  | outside e next, f => outside e (next.andThen f)

/-- The work of two routines in a row is the work of one after that of the other. -/
lemma work_andThen (r : Routine σ α) (f : Except Error α → Routine σ β) (h : Held σ) :
    (r.andThen f).work h =
      match r.work h with
      | .ok a h' => (f (.ok a)).work h'
      | .error e h' => (f (.error e)).work h' := by
  induction r generalizing h with
  | finish result =>
    cases result with
    | ok a => rfl
    | error e => rfl
  | state next ih => exact ih h.state h
  | change g next ih => exact ih ⟨g h.state, h.bus⟩
  | issue p next ih => exact ih (h.bus.issue p).1 ⟨h.state, (h.bus.issue p).2⟩
  | outside e next ih => exact ih ⟨h.state, e.apply h.bus⟩

/-- Keeps the state that a change of the host's state leaves, and finishes with its result. -/
def keep : EStateM.Result Error σ α → Routine σ α
  | .ok a s => .change (fun _ => s) (.finish (.ok a))
  | .error e s => .change (fun _ => s) (.finish (.error e))

end Routine

/-! ## Actions that are routines -/

/-- An action that goes step by step. -/
def Stepwise {σ α : Type} (x : Action σ α) : Prop := ∃ r : Routine σ α, r.work = x

namespace Stepwise

variable {σ α β : Type}

/-- A result alone is a routine. -/
lemma pure (a : α) : Stepwise (pure a : Action σ α) := ⟨.finish (.ok a), rfl⟩

/-- An error alone is a routine. -/
lemma throw (e : Error) : Stepwise (throw e : Action σ α) := ⟨.finish (.error e), rfl⟩

/-- One operation is a routine. -/
lemma issue (p : Primitive) : Stepwise (Action.issue p : Action σ p.Reply) := by
  refine ⟨.issue p .finish, ?_⟩
  funext h
  simp only [Routine.work, Action.issue]
  rcases h.bus.issue p with ⟨_ | _, _⟩ <;> rfl

/-- Two routines in a row are a routine. -/
lemma bind {x : Action σ α} {f : α → Action σ β} (hx : Stepwise x)
    (hf : ∀ a, Stepwise (f a)) : Stepwise (x >>= f) := by
  obtain ⟨r, rfl⟩ := hx
  choose next hnext using hf
  refine ⟨r.andThen fun
    | .ok a => next a
    | .error e => .finish (.error e), ?_⟩
  funext h
  rw [Routine.work_andThen]
  cases hr : r.work h with
  | ok a h' => exact (congrFun (hnext a) h').trans (bind_of_ok hr f).symm
  | error e h' => exact (bind_of_error hr f).symm

/-- A step may go on after a failure. -/
lemma tryCatch {x : Action σ α} {f : Error → Action σ α} (hx : Stepwise x)
    (hf : ∀ e, Stepwise (f e)) : Stepwise (tryCatch x f) := by
  obtain ⟨r, rfl⟩ := hx
  choose handler hhandler using hf
  refine ⟨r.andThen fun
    | .ok a => .finish (.ok a)
    | .error e => handler e, ?_⟩
  funext h
  rw [Routine.work_andThen]
  simp only [MonadExcept.tryCatch, tryCatchThe, MonadExceptOf.tryCatch, EStateM.tryCatch]
  cases r.work h with
  | ok a h' => rfl
  | error e h' => exact congrFun (hhandler e) h'

/-- A routine whose result is changed is a routine. -/
lemma map {x : Action σ α} (f : α → β) (hx : Stepwise x) : Stepwise (f <$> x) := by
  rw [map_eq_pure_bind]
  exact hx.bind fun a => .pure (f a)

/-- A change of the host's state that may fail. -/
lemma onState (x : EStateM Error σ α) : Stepwise (Link.Script.onState x) := by
  refine ⟨.state fun s => .keep (x s), ?_⟩
  funext h
  simp only [Routine.work, Link.Script.onState]
  cases x h.state <;> rfl

end Stepwise

/-- Every composite operation goes step by step. -/
theorem Wire.Request.stepwise {σ : Type} (r : Wire.Request) :
    Stepwise (r.perform : Action σ Wire.Answer) := by
  have write (address : Address) (value mask : Word) :
      Stepwise (Wire.write address value mask : Action σ Unit) :=
    .bind (.issue _) fun _ => .issue _
  have read (address : Address) : Stepwise (Wire.read address : Action σ Word) :=
    .bind (.issue _) fun _ => .issue _
  cases r with
  | set address value mask => exact .bind (.issue _) fun _ => .pure _
  | commit => exact .bind (.issue _) fun _ => .pure _
  | write address value mask => exact .bind (write address value mask) fun _ => .pure _
  | read address => exact .map _ (read address)
  | trigger bit => exact .bind (.issue _) fun _ => .pure _
  | readout select => exact .map _ (.bind (write _ _ _) fun _ => read _)
  | writePipe address bytes => exact .map _ (.issue _)
  | readPipe address length => exact .map _ (.issue _)

/-- Wire requests in a row are a routine. -/
lemma Wire.performAll_stepwise {σ : Type} (rs : List Wire.Request) :
    Stepwise (Wire.performAll rs : Action σ (List Wire.Answer)) := by
  induction rs with
  | nil => exact .pure []
  | cons r rs ih => exact .bind r.stepwise fun _ => .bind ih fun _ => .pure _

/-- Composite operations between two changes of the host's state go step by step. -/
theorem Link.Script.stepwise {σ : Type} (s : Link.Script σ) : Stepwise s.work :=
  .bind (.onState s.before) fun _ =>
    .bind (Wire.performAll_stepwise s.requests) fun _ =>
      .bind (.onState s.after) fun _ => .pure _

/-! ## A board that is out of its slot -/

/-- The board is out of its slot, and no fault lies in wait. -/
def Bus.Unplugged (b : Bus) : Prop := b.board.present = false ∧ b.fault = none

/-- Neither plugs the board in nor lays a fault. -/
def BusEvent.Calm : BusEvent → Prop
  | plug => False
  | expect (some _) => False
  | _ => True

/-- What happens while a routine runs neither plugs the board in nor lays a fault. -/
def Routine.Calm {σ α : Type} : Routine σ α → Prop
  | finish _ => True
  | state next => ∀ s, (next s).Calm
  | change _ next => next.Calm
  | issue _ next => ∀ reply, (next reply).Calm
  | outside e next => e.Calm ∧ next.Calm

namespace Bus.Unplugged

variable {b : Bus}

/-- On a board out of its slot every operation fails with the loss of the board. -/
lemma issue (h : b.Unplugged) (p : Primitive) :
    b.issue p = (.error (.transport .disconnected), b) := by
  simp only [Bus.issue, Bus.trip, h.2, h.1, Bool.false_eq_true, if_false]

/-- Calm events leave the board out of its slot. -/
lemma event (h : b.Unplugged) {e : BusEvent} (he : e.Calm) : (e.apply b).Unplugged := by
  obtain ⟨habsent, hfault⟩ := h
  cases e with
  | unplug => exact ⟨rfl, hfault⟩
  | plug => cases he
  | setDone done => exact ⟨habsent, hfault⟩
  | setRepetitions repetitions => exact ⟨habsent, hfault⟩
  | pushPipe address bytes => exact ⟨habsent, hfault⟩
  | expect fault =>
    cases fault with
    | none => exact ⟨habsent, rfl⟩
    | some f => cases he

end Bus.Unplugged

/-- Without a board every operation of a routine reports that the board is gone. -/
lemma Routine.of_unplugged {σ α : Type} {r : Routine σ α} (hr : r.Calm) {h : Held σ}
    (hbus : h.bus.Unplugged) :
    (after r.work h).bus.Unplugged ∧
      ∀ p f, .issued p f ∈ r.exchanges h → f = some (.transport .disconnected) := by
  induction r generalizing h with
  | finish result =>
    refine ⟨?_, fun p f hmem => absurd hmem List.not_mem_nil⟩
    cases result with
    | ok a => exact hbus
    | error e => exact hbus
  | state next ih => exact ih h.state (hr h.state) hbus
  | change f next ih => exact ih hr (h := ⟨f h.state, h.bus⟩) hbus
  | issue p next ih =>
    have hissue := hbus.issue p
    have hrest := ih (h.bus.issue p).1 (hr _) (h := ⟨h.state, (h.bus.issue p).2⟩)
      (by rw [hissue]; exact hbus)
    refine ⟨hrest.1, fun q f hmem => ?_⟩
    rcases List.mem_cons.mp hmem with heq | hmem
    · cases heq
      rw [hissue]
      rfl
    · exact hrest.2 q f hmem
  | outside e next ih =>
    have hrest := ih hr.2 (h := ⟨h.state, e.apply h.bus⟩) (hbus.event hr.1)
    refine ⟨hrest.1, fun q f hmem => ?_⟩
    rcases List.mem_cons.mp hmem with heq | hmem
    · cases heq
    · exact hrest.2 q f hmem

end PulseSequencer
