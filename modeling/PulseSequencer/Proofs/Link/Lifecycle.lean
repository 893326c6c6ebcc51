import PulseSequencer.Proofs.Link
import PulseSequencer.Proofs.Link.Routine

/-!
# The life of a link

A link goes through transactions, attempts to connect and disconnections, while its board is taken
out of its slot and put back. Only a connect whose initialisation succeeds attaches the board, and
only a disconnection detaches it, one that was asked for or one that a transaction reports.

* `Link.Event`, `Link.run`: what happens on a link, with the initialisation that it was given.
* `Link.exchanges`: what a transaction does on the bus, with `Link.sees_exchanges`.
* `Link.attached_since`: the connect that attached the board which is attached now.
* `Link.Lifecycle`, `Link.lifecycle`: when a link works, and when it refuses to.
-/

namespace PulseSequencer.Link

variable {σ α β : Type} {hook : Action σ Unit} {l l' : Link σ}

/-- What happens on a link with host state `σ`. -/
inductive Event (σ : Type) where
  | transaction {α : Type} (body : Routine σ α)
  | connect
  | disconnect
  | bus (e : BusEvent)

/-- The link after an event, if `hook` initialises a board. -/
def Event.apply (hook : Action σ Unit) : Event σ → Link σ → Link σ
  | transaction body, l => after (Link.transaction body.work) l
  | connect, l => after (Link.connect hook) l
  | disconnect, l => l.disconnect
  | bus e, l => l.onBus e.apply

/-- The link after events. -/
def run (hook : Action σ Unit) (l : Link σ) (events : List (Event σ)) : Link σ :=
  events.foldl (fun l e => e.apply hook l) l

/-- A run in two parts is one part after the other. -/
lemma run_append (l : Link σ) (before events : List (Event σ)) :
    run hook l (before ++ events) = run hook (run hook l before) events :=
  List.foldl_append

/-- The last event of a run comes last. -/
lemma run_concat (l : Link σ) (before : List (Event σ)) (e : Event σ) :
    run hook l (before ++ [e]) = e.apply hook (run hook l before) := by
  rw [run_append]
  rfl

/-- What goes over the bus while a transaction lasts: nothing, if no board is attached. -/
def exchanges (l : Link σ) (body : Routine σ α) : List Exchange :=
  if l.attached then body.exchanges l.held else []

/-- The bus that a transaction leaves is the one to which its exchanges lead. -/
theorem sees_exchanges (l : Link σ) (body : Routine σ α) :
    l.bus.Sees (l.exchanges body) (after (transaction body.work) l).bus := by
  have hsees := body.sees_exchanges l.held
  unfold exchanges after transaction
  by_cases hattached : l.attached = true
  · rw [if_pos hattached, if_pos hattached]
    unfold after at hsees
    cases hr : body.work l.held <;> rw [hr] at hsees <;> exact hsees
  · rw [if_neg hattached, if_neg hattached]
    exact .nil l.bus

/-! ## Transactions -/

/-- Without a board nothing is done. -/
lemma transaction_of_detached (hdetached : l.attached = false) (work : Action σ α) :
    transaction work l = .error .deviceNotConnected l := by
  rw [transaction, if_neg (Bool.eq_false_iff.mp hdetached)]

/-- Nothing goes over the bus of a detached board. -/
lemma exchanges_of_detached (hdetached : l.attached = false) (body : Routine σ α) :
    l.exchanges body = [] := by
  rw [exchanges, if_neg (Bool.eq_false_iff.mp hdetached)]

/-- After a transaction no board is attached if none was before, or if the transaction reports a
disconnection. -/
lemma detached_after_transaction_iff (work : Action σ α) (l : Link σ) :
    (after (transaction work) l).attached = false ↔
      l.attached = false ∨ ∃ l', transaction work l = .error (.transport .disconnected) l' := by
  by_cases hattached : l.attached = true
  · cases hwork : work l.held with
    | ok a held =>
      have hr : transaction work l = .ok a { l with held } := by
        rw [transaction, if_pos hattached, hwork]
      rw [after_of_ok hr, hr]
      simp [hattached]
    | error e held =>
      have hr : transaction work l =
          .error e { l with held, attached := !e.isDisconnection } := by
        rw [transaction, if_pos hattached, hwork]
      rw [after_of_error hr, hr, Bool.not_eq_false', Error.isDisconnection_iff]
      simp [hattached]
  · have hdetached := Bool.eq_false_iff.mpr hattached
    rw [after_of_error (transaction_of_detached hdetached work)]
    simp [hdetached]

/-! ## Attempts to connect -/

/-- A board is attached after an attempt to connect if the attempt succeeded. -/
lemma detached_of_connect (hdetached : l.attached = false)
    (hnever : ∀ l', connect hook l ≠ .ok () l') : (after (connect hook) l).attached = false := by
  cases hpresent : l.bus.board.present with
  | false =>
    rw [after_of_error (connect_of_absent hdetached hpresent)]
    exact hdetached
  | true =>
    have hconnect : connect hook l = _ := connect_of_present hdetached hpresent
    cases hhook : hook l.held with
    | ok u held =>
      rw [hhook] at hconnect
      exact absurd hconnect (hnever _)
    | error e held =>
      rw [hhook] at hconnect
      rw [after_of_error hconnect]
      exact hdetached

/-- What attaches a board is an initialisation that succeeds on the board in the slot. -/
lemma initialised_of_connect (hdetached : l.attached = false)
    (hattached : (after (connect hook) l).attached = true) :
    l.bus.board.present = true ∧ hook l.held = .ok () (after (connect hook) l).held := by
  cases hpresent : l.bus.board.present with
  | false =>
    rw [after_of_error (connect_of_absent hdetached hpresent)] at hattached
    exact absurd (hdetached.symm.trans hattached) Bool.false_ne_true
  | true =>
    have hconnect : connect hook l = _ := connect_of_present hdetached hpresent
    cases hhook : hook l.held with
    | ok u held =>
      rw [hhook] at hconnect
      rw [after_of_ok hconnect]
      exact ⟨rfl, rfl⟩
    | error e held =>
      rw [hhook] at hconnect
      rw [after_of_error hconnect] at hattached
      exact absurd (hdetached.symm.trans hattached) Bool.false_ne_true

/-- No attempt to connect succeeds in these events. -/
def NeverConnects (hook : Action σ Unit) (l : Link σ) (events : List (Event σ)) : Prop :=
  ∀ before rest l', events = before ++ .connect :: rest →
    connect hook (run hook l before) ≠ .ok () l'

/-- Only an attempt to connect that succeeds attaches a board. -/
lemma connect_of_attaches {e : Event σ} (hdetached : l.attached = false)
    (hattached : (e.apply hook l).attached = true) : e = .connect := by
  cases e with
  | transaction body =>
    have hafter := (detached_after_transaction_iff body.work l).mpr (.inl hdetached)
    exact absurd (hafter.symm.trans hattached) Bool.false_ne_true
  | connect => rfl
  | disconnect => cases hattached
  | bus e => exact absurd (hdetached.symm.trans hattached) Bool.false_ne_true

/-- A detached board stays so as long as no connect attaches it. -/
lemma detached_run (hdetached : l.attached = false) {events : List (Event σ)}
    (hnever : NeverConnects hook l events) : (run hook l events).attached = false := by
  induction events using List.reverseRecOn with
  | nil => exact hdetached
  | append_singleton before e ih =>
    have hbefore : (run hook l before).attached = false :=
      ih fun earlier rest l' heq => hnever earlier (rest ++ [e]) l' (by rw [heq]; simp)
    rw [run_concat, Bool.eq_false_iff]
    intro hattached
    obtain rfl := connect_of_attaches hbefore hattached
    have hdetached' := detached_of_connect hbefore fun l' => hnever before [] l' rfl
    exact absurd (hdetached'.symm.trans hattached) Bool.false_ne_true

/-- After `before` a connect attached a board that the hook had initialised, and it has been
attached ever since, in the events `since`. -/
structure AttachedSince (hook : Action σ Unit) (l : Link σ) (before since : List (Event σ)) :
    Prop where
  detached : (run hook l before).attached = false
  present : (run hook l before).bus.board.present = true
  initialised : hook (run hook l before).held = .ok () (run hook l (before ++ [.connect])).held
  attached : ∀ now, now <+: since → (run hook l (before ++ .connect :: now)).attached = true

/-- A board that is attached now has been attached since the latest connect that attached one. -/
theorem attached_since (hdetached : l.attached = false) {events : List (Event σ)}
    (hattached : (run hook l events).attached = true) :
    ∃ before since, events = before ++ .connect :: since ∧ AttachedSince hook l before since := by
  induction events using List.reverseRecOn with
  | nil => exact absurd (hdetached.symm.trans hattached) Bool.false_ne_true
  | append_singleton events e ih =>
    cases hbefore : (run hook l events).attached with
    | true =>
      -- the board was attached before, and still is
      obtain ⟨before, since, rfl, h⟩ := ih hbefore
      refine ⟨before, since ++ [e], by simp, h.detached, h.present, h.initialised, ?_⟩
      intro now hnow
      rcases List.prefix_concat_iff.mp hnow with rfl | hnow
      · simpa using hattached
      · exact h.attached now hnow
    | false =>
      rw [run_concat] at hattached
      obtain rfl := connect_of_attaches hbefore hattached
      obtain ⟨hpresent, hinit⟩ := initialised_of_connect hbefore hattached
      refine ⟨events, [], rfl, hbefore, hpresent, by rw [run_concat]; exact hinit, ?_⟩
      intro now hnow
      obtain rfl := List.prefix_nil.mp hnow
      rw [run_concat]
      exact hattached

/-! ## A board that is lost -/

/-- The event neither plugs the board in nor lays a fault. -/
def Event.Calm : Event σ → Prop
  | transaction body => body.Calm
  | bus e => e.Calm
  | _ => True

/-- A transaction on an attached board leaves the bus that its work leaves. -/
lemma bus_after_transaction (l : Link σ) (work : Action σ α) (hattached : l.attached = true) :
    (after (transaction work) l).bus = (after work l.held).bus := by
  simp only [after, transaction, if_pos hattached]
  cases work l.held <;> rfl

/-- A board that is out of its slot stays out of it through a calm event. -/
lemma unplugged_apply (hbus : l.bus.Unplugged) {e : Event σ} (he : e.Calm) :
    (e.apply hook l).bus.Unplugged := by
  cases e with
  | transaction body =>
    cases hattached : l.attached with
    | true =>
      show (after (transaction body.work) l).bus.Unplugged
      rw [bus_after_transaction l body.work hattached]
      exact (Routine.of_unplugged he hbus).1
    | false =>
      show (after (transaction body.work) l).bus.Unplugged
      rw [after_of_error (transaction_of_detached hattached body.work)]
      exact hbus
  | connect =>
    show (after (connect hook) l).bus.Unplugged
    cases hattached : l.attached with
    | true =>
      rw [after_of_ok (connect_of_attached hattached)]
      exact hbus
    | false =>
      rw [after_of_error (connect_of_absent hattached hbus.1)]
      exact hbus
  | disconnect => exact hbus
  | bus e => exact hbus.event he

/-- A board that is out of its slot stays out of it through calm events. -/
lemma unplugged_run (hbus : l.bus.Unplugged) {events : List (Event σ)}
    (hevents : ∀ e ∈ events, e.Calm) : (run hook l events).bus.Unplugged := by
  induction events generalizing l with
  | nil => exact hbus
  | cons e events ih =>
    exact ih (unplugged_apply hbus (hevents e List.mem_cons_self)) fun e' he' =>
      hevents e' (List.mem_cons_of_mem e he')

/-- A transaction returns the failure of one of its operations. -/
def Propagates (l : Link σ) (body : Routine σ α) (e : Error) (l' : Link σ) : Prop :=
  transaction body.work l = .error e l' ∧ ∃ p, .issued p (some e) ∈ l.exchanges body

/-- Without a board in the slot the failure is the loss of the board, and the board is detached. -/
lemma Propagates.disconnected {body : Routine σ α} {e : Error} (h : Propagates l body e l')
    (hbus : l.bus.Unplugged) (hbody : body.Calm) :
    e = .transport .disconnected ∧ l'.attached = false := by
  obtain ⟨hr, p, hmem⟩ := h
  have hattached : l.attached = true := by
    by_contra hdetached
    rw [exchanges_of_detached (Bool.eq_false_iff.mpr hdetached)] at hmem
    cases hmem
  rw [exchanges, if_pos hattached] at hmem
  obtain rfl : e = .transport .disconnected :=
    Option.some.inj ((Routine.of_unplugged hbody hbus).2 p _ hmem)
  refine ⟨rfl, ?_⟩
  rw [← after_of_error hr]
  exact (detached_after_transaction_iff body.work l).mpr (.inr ⟨l', hr⟩)

/-! ## The life of a link -/

/-- What holds of a link after events that began without a board. -/
structure Lifecycle (hook : Action σ Unit) (l : Link σ) (events : List (Event σ)) : Prop where
  /-- What a transaction does on the bus is the list of its exchanges. -/
  answered : ∀ {α : Type} (body : Routine σ α),
    (run hook l events).bus.Sees ((run hook l events).exchanges body)
      (after (transaction body.work) (run hook l events)).bus
  /-- Without a board a transaction is refused, and nothing is done or changed. -/
  refused : (run hook l events).attached = false → ∀ {α : Type} (body : Routine σ α),
    transaction body.work (run hook l events) = .error .deviceNotConnected (run hook l events) ∧
      (run hook l events).exchanges body = []
  /-- A transaction detaches the board if it reports a disconnection. -/
  detaches : ∀ {α : Type} (body : Routine σ α),
    (after (transaction body.work) (run hook l events)).attached = false ↔
      (run hook l events).attached = false ∨
        ∃ l', transaction body.work (run hook l events) = .error (.transport .disconnected) l'
  /-- A transaction works on a board that was initialised when it was attached. -/
  initialised : ∀ {α : Type} (body : Routine σ α) (p : Primitive) (f : Option Error),
    .issued p f ∈ (run hook l events).exchanges body →
      ∃ before since, events = before ++ .connect :: since ∧ AttachedSince hook l before since
  /-- Once the board is out of its slot, the first failure that a transaction returns is the loss of
  the board, and then transactions are refused until a connect succeeds. -/
  lost : (run hook l events).bus.Unplugged → ∀ quiet : List (Event σ), (∀ e ∈ quiet, e.Calm) →
    ∀ {α : Type} (body : Routine σ α), body.Calm → ∀ e l',
      Propagates (run hook l (events ++ quiet)) body e l' →
        e = .transport .disconnected ∧
          ∀ more, NeverConnects hook l' more → ∀ {β : Type} (next : Routine σ β),
            transaction next.work (run hook l' more) =
              .error .deviceNotConnected (run hook l' more)

/-- However transactions, attempts to connect, disconnections and what happens to the board follow
each other. -/
theorem lifecycle (hook : Action σ Unit) (deviceId : String) (state : σ) (bus : Bus)
    (events : List (Event σ)) : Lifecycle hook (detached deviceId state bus) events where
  answered body := sees_exchanges _ body
  refused hdetached _ body :=
    ⟨transaction_of_detached hdetached body.work, exchanges_of_detached hdetached body⟩
  detaches body := detached_after_transaction_iff body.work _
  initialised body p f hmem := by
    refine attached_since rfl ?_
    by_contra hdetached
    rw [exchanges_of_detached (Bool.eq_false_iff.mpr hdetached)] at hmem
    cases hmem
  lost hbus quiet hquiet _ body hbody e l' h := by
    rw [run_append] at h
    obtain ⟨he, hdetached⟩ := h.disconnected (unplugged_run hbus hquiet) hbody
    exact ⟨he, fun more hnever _ next =>
      transaction_of_detached (detached_run hdetached hnever) next.work⟩

/-- A transaction of one operation. -/
def touch : Routine Unit Unit := .issue .commit fun reply => .finish (reply.map fun _ => ())

/-- A board is attached and taken out of its slot: the next transaction reports that it is lost, and
from then on they are refused. -/
theorem touch_of_lost_board :
    let l := run (pure ()) (detached "board" () (.new .new)) [.connect, .bus .unplug]
    let l' := after (transaction touch.work) l
    l.attached = true ∧ Propagates l touch (.transport .disconnected) l' ∧
      ∀ more, NeverConnects (pure ()) l' more →
        transaction touch.work (run (pure ()) l' more) =
          .error .deviceNotConnected (run (pure ()) l' more) := by
  have hlost : Propagates (run (pure ()) (detached "board" () (.new .new)) [.connect, .bus .unplug])
      touch (.transport .disconnected) _ := ⟨rfl, .commit, List.mem_singleton.mpr rfl⟩
  have hcalm : touch.Calm := fun _ => trivial
  refine ⟨rfl, hlost, fun more hmore => ?_⟩
  exact ((lifecycle (pure ()) "board" () (.new .new) [.connect, .bus .unplug]).lost ⟨rfl, rfl⟩ []
    (fun _ h => absurd h List.not_mem_nil) touch hcalm _ _ hlost).2 more hmore touch

end PulseSequencer.Link
