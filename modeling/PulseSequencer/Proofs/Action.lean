import PulseSequencer.Wire
import PulseSequencer.Proofs.Board.Replay

/-!
# What an action leaves behind

An action may fail at any of its primitive operations, and what it did until then stays.
`Keeps I S x` says of an action `x` what holds however it ends: the invariant `I` is kept, and only
operations with `S` have reached the board. The rules follow the way actions are put together. If an
action only issues a fixed list of operations, a fault decides exactly how many of them reach the
board.

* `after`: the state that an action leaves, whether it succeeded or failed; `bind_of_ok`,
  `bind_of_error`: what comes of two actions.
* `Keeps`: the judgment, with the rules that hold wherever there is a board.
* `OnState`: an invariant of the host's state; the rules for the steps of a transaction.
* `Leaves`: an action leaves a part of the state alone, however it ends.
* `Action.issueAll`: a fixed list of operations; `Action.issueAll_of_fault`,
  `Action.issueAll_of_pass` and `Action.after_issueAll_change` say how far it comes.
-/

namespace PulseSequencer

/-- A state with a board in it. -/
class HasBoard (ω : Type) where
  board : ω → Board

instance {σ : Type} : HasBoard (Held σ) := ⟨fun h => h.bus.board⟩

section
variable {ω α β : Type}

/-- The state that an action leaves, whether it succeeded or failed. -/
def after (x : EStateM Error ω α) (w : ω) : ω :=
  match x w with
  | .ok _ w' => w'
  | .error _ w' => w'

/-- After a success. -/
lemma after_of_ok {x : EStateM Error ω α} {w w' : ω} {a : α} (hx : x w = .ok a w') :
    after x w = w' := by
  rw [after, hx]

/-- After a failure. -/
lemma after_of_error {x : EStateM Error ω α} {w w' : ω} {e : Error} (hx : x w = .error e w') :
    after x w = w' := by
  rw [after, hx]

/-- What follows a success goes on from where that ended. -/
lemma bind_of_ok {x : EStateM Error ω α} {w w' : ω} {a : α} (hx : x w = .ok a w')
    (f : α → EStateM Error ω β) : (x >>= f) w = f a w' := by
  simp only [Bind.bind, EStateM.bind, hx]

/-- What would follow a failure is not done. -/
lemma bind_of_error {x : EStateM Error ω α} {w w' : ω} {e : Error} (hx : x w = .error e w')
    (f : α → EStateM Error ω β) : (x >>= f) w = .error e w' := by
  simp only [Bind.bind, EStateM.bind, hx]

/-- Two actions leave what the second one leaves after the success of the first one, -/
lemma after_bind_of_ok {x : EStateM Error ω α} {w w' : ω} {a : α} (hx : x w = .ok a w')
    (f : α → EStateM Error ω β) : after (x >>= f) w = after (f a) w' := by
  rw [after, bind_of_ok hx, ← after]

/-- and what the first one leaves after its failure. -/
lemma after_bind_of_error {x : EStateM Error ω α} {w w' : ω} {e : Error} (hx : x w = .error e w')
    (f : α → EStateM Error ω β) : after (x >>= f) w = w' :=
  after_of_error (bind_of_error hx f)

/-- What is left of an action whose answer is not used. -/
lemma after_discard (x : EStateM Error ω α) (w : ω) : after (do let _ ← x) w = after x w := by
  cases hx : x w with
  | ok a w' => rw [after_bind_of_ok hx, after_of_ok hx]; rfl
  | error e w' => rw [after_bind_of_error hx, after_of_error hx]

/-- If an action and what follows it succeed, each of them does. -/
lemma ok_of_bind {x : EStateM Error ω α} {f : α → EStateM Error ω β} {w w' : ω} {b : β}
    (h : (x >>= f) w = .ok b w') : ∃ a w₁, x w = .ok a w₁ ∧ f a w₁ = .ok b w' := by
  cases hx : x w with
  | ok a w₁ => exact ⟨a, w₁, rfl, bind_of_ok hx f ▸ h⟩
  | error e w₁ => cases (bind_of_error hx f).symm.trans h

/-- If an action and what follows it fail, one of them does. -/
lemma error_of_bind {x : EStateM Error ω α} {f : α → EStateM Error ω β} {w w' : ω} {e : Error}
    (h : (x >>= f) w = .error e w') :
    x w = .error e w' ∨ ∃ a w₁, x w = .ok a w₁ ∧ f a w₁ = .error e w' := by
  cases hx : x w with
  | ok a w₁ => exact .inr ⟨a, w₁, rfl, bind_of_ok hx f ▸ h⟩
  | error e' w₁ =>
    cases (bind_of_error hx f).symm.trans h
    exact .inl rfl

/-- However `x` ends, `I` is kept, and only operations with `S` have reached the board. -/
def Keeps [HasBoard ω] (I : ω → Prop) (S : Primitive → Prop) (x : EStateM Error ω α) : Prop :=
  ∀ w, I w → I (after x w) ∧ ∃ ps : List Primitive, (∀ p ∈ ps, S p) ∧
    HasBoard.board (after x w) = (HasBoard.board w).replay ps

namespace Keeps

variable [HasBoard ω] {I : ω → Prop} {S : Primitive → Prop}

/-- An action that leaves everything as it was. -/
lemma of_after_eq {x : EStateM Error ω α} (hx : ∀ w, I w → after x w = w) : Keeps I S x := by
  intro w hI
  rw [hx w hI]
  exact ⟨hI, [], by simp, rfl⟩

/-- An action that changes nothing on the board. -/
lemma of_board_eq {x : EStateM Error ω α}
    (hx : ∀ w, I w → I (after x w) ∧ HasBoard.board (after x w) = HasBoard.board w) :
    Keeps I S x :=
  fun w hI => ⟨(hx w hI).1, [], by simp, (hx w hI).2⟩

/-- A result alone keeps everything. -/
lemma pure (a : α) : Keeps I S (pure a) := of_after_eq fun _ _ => rfl

/-- An error alone keeps everything. -/
lemma throw (e : Error) : Keeps I S (throw e : EStateM Error ω α) := of_after_eq fun _ _ => rfl

/-- Two actions in a row keep what each of them keeps. -/
lemma bind {x : EStateM Error ω α} {f : α → EStateM Error ω β} (hx : Keeps I S x)
    (hf : ∀ a, Keeps I S (f a)) : Keeps I S (x >>= f) := by
  intro w hI
  obtain ⟨hI', ps, hps, hboard⟩ := hx w hI
  -- after a failure of `x` nothing of `f` is done
  cases hr : x w with
  | error e w' =>
    rw [after_of_error hr] at hI' hboard
    rw [after_bind_of_error hr]
    exact ⟨hI', ps, hps, hboard⟩
  | ok a w' =>
    rw [after_of_ok hr] at hI' hboard
    obtain ⟨hI'', qs, hqs, hboard'⟩ := hf a w' hI'
    rw [after_bind_of_ok hr]
    refine ⟨hI'', ps ++ qs, ?_, by rw [hboard', hboard, Board.replay_append]⟩
    intro p hp
    rcases List.mem_append.mp hp with hp | hp
    · exact hps p hp
    · exact hqs p hp

/-- What would follow a refusal does not matter. -/
lemma throw_bind {e : Error} {f : α → EStateM Error ω β} :
    Keeps I S ((MonadExcept.throw e : EStateM Error ω α) >>= f) :=
  of_after_eq fun _ _ => rfl

/-- An action that depends on a condition keeps what both branches keep. -/
lemma ite {c : Prop} [Decidable c] {x y : EStateM Error ω α} (hx : c → Keeps I S x)
    (hy : ¬c → Keeps I S y) : Keeps I S (if c then x else y) := by
  by_cases hc : c
  · rw [if_pos hc]
    exact hx hc
  · rw [if_neg hc]
    exact hy hc

/-- More operations may be allowed. -/
lemma mono {S' : Primitive → Prop} {x : EStateM Error ω α} (hS : ∀ p, S p → S' p)
    (hx : Keeps I S x) : Keeps I S' x := by
  intro w hI
  obtain ⟨hI', ps, hps, hboard⟩ := hx w hI
  exact ⟨hI', ps, fun p hp => hS p (hps p hp), hboard⟩

end Keeps

end

namespace Action

variable {σ : Type}

/-! ## Single operations -/

/-- On a board in its slot and without a fault in wait an operation is carried out. -/
lemma issue_of_fault_none {h : Held σ} (hfault : h.bus.fault = none)
    (hpresent : h.bus.board.present = true) (p : Primitive) :
    issue p h =
      .ok ((h.bus.board.record p).perform p).1 ⟨h.state, ⟨h.bus.board.carry p, none⟩⟩ := by
  obtain ⟨state, ⟨board, fault⟩⟩ := h
  cases hfault
  simp only [issue, Bus.issue, Bus.trip, if_pos hpresent]
  rfl

/-- A fault whose operations have passed stops the next one. -/
lemma issue_of_fault_zero {h : Held σ} {f : Failure} (hfault : h.bus.fault = some ⟨0, f⟩)
    (p : Primitive) : issue p h = .error f.error ⟨h.state, ⟨h.bus.board, none⟩⟩ := by
  obtain ⟨state, ⟨board, fault⟩⟩ := h
  cases hfault
  rfl

/-- A fault lets an operation pass and comes one closer. -/
lemma issue_of_fault_succ {h : Held σ} {n : Nat} {f : Failure}
    (hfault : h.bus.fault = some ⟨n + 1, f⟩) (hpresent : h.bus.board.present = true)
    (p : Primitive) :
    issue p h = .ok ((h.bus.board.record p).perform p).1
      ⟨h.state, ⟨h.bus.board.carry p, some ⟨n, f⟩⟩⟩ := by
  obtain ⟨state, ⟨board, fault⟩⟩ := h
  cases hfault
  simp only [issue, Bus.issue, Bus.trip, if_pos hpresent]
  rfl

/-- An operation reaches the board and answers what the board gives, or fails and has not reached
it. -/
lemma issue_cases (p : Primitive) (h : Held σ) :
    (∃ fault, issue p h =
      .ok ((h.bus.board.record p).perform p).1 ⟨h.state, ⟨h.bus.board.carry p, fault⟩⟩) ∨
      ∃ e fault, issue p h = .error e ⟨h.state, ⟨h.bus.board, fault⟩⟩ := by
  obtain ⟨state, ⟨board, fault⟩⟩ := h
  by_cases hpresent : board.present = true
  · rcases fault with _ | ⟨_ | n, f⟩
    · exact .inl ⟨none, issue_of_fault_none rfl hpresent p⟩
    · exact .inr ⟨f.error, none, issue_of_fault_zero rfl p⟩
    · exact .inl ⟨some ⟨n, f⟩, issue_of_fault_succ rfl hpresent p⟩
  · refine .inr ?_
    rcases fault with _ | ⟨_ | n, f⟩
    · simp only [issue, Bus.issue, Bus.trip, if_neg hpresent]
      exact ⟨_, _, rfl⟩
    · exact ⟨f.error, none, issue_of_fault_zero rfl p⟩
    · simp only [issue, Bus.issue, Bus.trip, if_neg hpresent]
      exact ⟨_, _, rfl⟩

/-- An operation that succeeds leaves the state, is carried out by the board, and gives the board's
reply. -/
lemma carried_of_ok {p : Primitive} {h h' : Held σ} {reply : p.Reply}
    (hp : issue p h = .ok reply h') :
    h'.state = h.state ∧ h'.bus.board = h.bus.board.carry p ∧
      reply = ((h.bus.board.record p).perform p).1 := by
  rcases issue_cases p h with ⟨_, hissue⟩ | ⟨_, _, hissue⟩
  · cases hissue.symm.trans hp
    exact ⟨rfl, rfl, rfl⟩
  · cases hissue.symm.trans hp

/-- An operation that succeeds leaves the state and is carried out by the board. -/
lemma issue_of_ok {p : Primitive} {h h' : Held σ} {reply : p.Reply}
    (hp : issue p h = .ok reply h') : h'.state = h.state ∧ h'.bus.board = h.bus.board.carry p :=
  ⟨(carried_of_ok hp).1, (carried_of_ok hp).2.1⟩

/-- An operation that fails leaves the state and the board. -/
lemma issue_of_error {p : Primitive} {h h' : Held σ} {e : Error} (hp : issue p h = .error e h') :
    h'.state = h.state ∧ h'.bus.board = h.bus.board := by
  rcases issue_cases p h with ⟨_, hissue⟩ | ⟨_, _, hissue⟩
  · cases hissue.symm.trans hp
  · cases hissue.symm.trans hp
    exact ⟨rfl, rfl⟩

/-! ## Parts of the state -/

/-- What follows a look at the state is told the state. -/
lemma state_bind {α : Type} (f : σ → Action σ α) (h : Held σ) :
    (state >>= f) h = f h.state h := rfl

section
variable {τ α : Type} {get : τ → σ} {put : τ → σ → τ} {x : Action σ α} {h h' : Held τ}

/-- A success on a part of the state is one on the whole, -/
lemma focus_of_ok {k : Held σ} {a : α} (hx : x ⟨get h.state, h.bus⟩ = .ok a k) :
    focus get put x h = .ok a ⟨put h.state k.state, k.bus⟩ := by
  simp only [focus, hx]

/-- and so is a failure. -/
lemma focus_of_error {k : Held σ} {e : Error} (hx : x ⟨get h.state, h.bus⟩ = .error e k) :
    focus get put x h = .error e ⟨put h.state k.state, k.bus⟩ := by
  simp only [focus, hx]

/-- What is left of work on a part of the state. -/
lemma after_focus (get : τ → σ) (put : τ → σ → τ) (x : Action σ α) (h : Held τ) :
    after (focus get put x) h =
      ⟨put h.state (after x ⟨get h.state, h.bus⟩).state, (after x ⟨get h.state, h.bus⟩).bus⟩ := by
  cases hx : x ⟨get h.state, h.bus⟩ with
  | ok a k => rw [after_of_ok (focus_of_ok hx), after_of_ok hx]
  | error e k => rw [after_of_error (focus_of_error hx), after_of_error hx]

/-- Steps on a part of the state follow one another on the whole, if what was put there is found
there. -/
lemma focus_bind {β : Type} (hget : ∀ t s, get (put t s) = s)
    (hput : ∀ t s s', put (put t s) s' = put t s') (x : Action σ α) (f : α → Action σ β) :
    focus get put (x >>= f) = focus get put x >>= fun a => focus get put (f a) := by
  funext h
  cases hx : x ⟨get h.state, h.bus⟩ with
  | ok a k =>
    rw [bind_of_ok (focus_of_ok hx), focus, focus, bind_of_ok hx, hget]
    cases f a k <;> simp only [hput]
  | error e k => rw [focus_of_error (bind_of_error hx f), bind_of_error (focus_of_error hx)]

/-- An answer that is not used does not matter to the whole either. -/
lemma focus_discard (get : τ → σ) (put : τ → σ → τ) (x : Action σ α) :
    focus get put (do let _ ← x) = (do let _ ← focus get put x) := by
  funext h
  cases hx : x ⟨get h.state, h.bus⟩ with
  | ok a k =>
    have hdiscard : (do let _ ← x : Action σ Unit) ⟨get h.state, h.bus⟩ = .ok () k :=
      bind_of_ok hx _
    rw [focus_of_ok hdiscard, bind_of_ok (focus_of_ok hx)]
    rfl
  | error e k => rw [focus_of_error (bind_of_error hx _), bind_of_error (focus_of_error hx)]

/-- Work on a part of the state that succeeds. -/
lemma ok_of_focus {a : α} (hok : focus get put x h = .ok a h') :
    ∃ k, x ⟨get h.state, h.bus⟩ = .ok a k ∧ h' = ⟨put h.state k.state, k.bus⟩ := by
  unfold focus at hok
  split at hok
  case h_1 hx =>
    cases hok
    exact ⟨_, hx, rfl⟩
  case h_2 => cases hok

/-- Work on a part of the state that fails. -/
lemma error_of_focus {e : Error} (herror : focus get put x h = .error e h') :
    ∃ k, x ⟨get h.state, h.bus⟩ = .error e k ∧ h' = ⟨put h.state k.state, k.bus⟩ := by
  unfold focus at herror
  split at herror
  case h_1 => cases herror
  case h_2 hx =>
    cases herror
    exact ⟨_, hx, rfl⟩

end

end Action

/-! ## What is kept -/

/-- An invariant of the host's state, as one of what a transaction holds. -/
def OnState {σ : Type} (I : σ → Prop) (h : Held σ) : Prop := I h.state

namespace Keeps

variable {σ τ α β : Type} {I : σ → Prop} {S : Primitive → Prop}

/-- What the judgment says of a step of a transaction. -/
lemma held {x : Action σ α} (hx : Keeps (OnState I) S x) {h : Held σ} (hI : I h.state) :
    I (after x h).state ∧ ∃ ps : List Primitive, (∀ p ∈ ps, S p) ∧
      (after x h).bus.board = h.bus.board.replay ps := hx h hI

/-- A change of the state keeps what it keeps of the state. -/
lemma change {f : σ → σ} (hf : ∀ s, I s → I (f s)) : Keeps (OnState I) S (Action.change f) :=
  .of_board_eq fun h hI => ⟨hf h.state hI, rfl⟩

/-- One operation keeps everything that is said about the state. -/
lemma issue {p : Primitive} (hp : S p) :
    Keeps (OnState I) S (Action.issue p : Action σ p.Reply) := by
  intro h hI
  cases hr : Action.issue p h with
  | ok reply h' =>
    obtain ⟨hstate, hboard⟩ := Action.issue_of_ok hr
    rw [after_of_ok hr, OnState, hstate]
    exact ⟨hI, [p], by simpa using hp, hboard⟩
  | error e h' =>
    obtain ⟨hstate, hboard⟩ := Action.issue_of_error hr
    rw [after_of_error hr, OnState, hstate]
    exact ⟨hI, [], by simp, hboard⟩

/-- After a look at the host's state the invariant is known of what was seen. -/
lemma state_bind {f : σ → Action σ α} (hf : ∀ s, I s → Keeps (OnState I) S (f s)) :
    Keeps (OnState I) S (Action.state >>= f) :=
  fun h hI => hf h.state hI h hI

/-- After a check only the answers matter that it can give. -/
lemma ofExcept_bind {r : Except Error α} {f : α → Action σ β}
    (hf : ∀ a, r = .ok a → Keeps (OnState I) S (f a)) :
    Keeps (OnState I) S (Action.ofExcept r >>= f) := by
  cases r with
  | error e => exact .of_after_eq fun _ _ => rfl
  | ok a => exact hf a rfl

/-- An action on a part of the state keeps what that part has to do with the invariant. -/
lemma focus {J : τ → Prop} {get : τ → σ} {put : τ → σ → τ} {x : Action σ α}
    (hget : ∀ t, J t → I (get t)) (hput : ∀ t s, J t → I s → J (put t s))
    (hx : Keeps (OnState I) S x) : Keeps (OnState J) S (Action.focus get put x) := by
  intro h hJ
  obtain ⟨hI', hps⟩ := hx ⟨get h.state, h.bus⟩ (hget h.state hJ)
  rw [Action.after_focus]
  exact ⟨hput _ _ hJ hI', hps⟩

/-! ## What the composite operations keep -/

/-- Setting a wire is one operation. -/
lemma set {address : Address} {value mask : Word} (h : S (.setWire address value mask)) :
    Keeps (OnState I) S (Wire.set address value mask) := .issue h

/-- A commit is one operation. -/
lemma commit (h : S .commit) : Keeps (OnState I) S Wire.commit := .issue h

/-- A trigger is one operation. -/
lemma trigger {bit : UInt8} (h : S (.trigger Endpoint.trigger bit)) :
    Keeps (OnState I) S (Wire.trigger bit) := .issue h

/-- Reading a pipe is one operation. -/
lemma readPipe {address : Address} {length : Nat} (h : S (.readPipe address length)) :
    Keeps (OnState I) S (Wire.readPipe address length) := .issue h

/-- Writing a pipe is one operation. -/
lemma writePipe {address : Address} {bytes : List Byte} (h : S (.writePipe address bytes)) :
    Keeps (OnState I) S (Wire.writePipe address bytes) := .issue h

/-- Writing a wire sets it and commits. -/
lemma write {address : Address} {value mask : Word} (hset : S (.setWire address value mask))
    (hcommit : S .commit) : Keeps (OnState I) S (Wire.write address value mask) :=
  .bind (.set hset) fun _ => .commit hcommit

/-- Reading a wire latches all wires and reads one. -/
lemma read {address : Address} (hlatch : S .latch) (hread : S (.readWire address)) :
    Keeps (OnState I) S (Wire.read address) :=
  .bind (.issue hlatch) fun _ => .issue hread

/-- A readout selects its quantity, commits, latches and reads. -/
lemma readout {select : Readout}
    (hset : S (.setWire Endpoint.control select.code Control.readout)) (hcommit : S .commit)
    (hlatch : S .latch) (hread : S (.readWire Endpoint.readout)) :
    Keeps (OnState I) S (Wire.readout select) :=
  .bind (.write hset hcommit) fun _ => .read hlatch hread

end Keeps

/-! ## What is left alone -/

/-- However `x` ends, the part `f` of the state is as it was. -/
def Leaves {ω γ α : Type} (f : ω → γ) (x : EStateM Error ω α) : Prop := ∀ w, f (after x w) = f w

namespace Leaves

variable {ω γ σ α β : Type} {f : ω → γ}

/-- If two actions leave the part alone, they do so one after the other. -/
lemma bind {x : EStateM Error ω α} {g : α → EStateM Error ω β} (hx : Leaves f x)
    (hg : ∀ a, Leaves f (g a)) : Leaves f (x >>= g) := by
  intro w
  have hfirst := hx w
  cases hr : x w with
  | error e w' =>
    rw [after_of_error hr] at hfirst
    rw [after_bind_of_error hr, hfirst]
  | ok a w' =>
    rw [after_of_ok hr] at hfirst
    rw [after_bind_of_ok hr, hg a w', hfirst]

/-- A look at the state changes nothing. -/
lemma get_bind {g : ω → EStateM Error ω α} (hg : ∀ w, Leaves f (g w)) : Leaves f (get >>= g) :=
  fun w => hg w w

/-- It does not matter whether the answer is used. -/
lemma discard {x : EStateM Error ω α} (hx : Leaves f x) : Leaves f (do let _ ← x) :=
  hx.bind fun _ _ => rfl

/-- A part of the host's state that has the same value whatever value it has. -/
lemma of_keeps {f : σ → γ} {S : Primitive → Prop} {x : Action σ α}
    (hx : ∀ c, Keeps (OnState fun s => f s = c) S x) : Leaves (fun h : Held σ => f h.state) x :=
  fun h => ((hx (f h.state)).held rfl).1

end Leaves

namespace Action

variable {σ α : Type}

/-! ## Lists of operations -/

/-- Primitive operations in order, whatever they answer. -/
def issueAll : List Primitive → Action σ Unit
  | [] => Pure.pure ()
  | p :: ps => do
    let _ ← Action.issue p
    issueAll ps

/-- Operations before an action: the first one, then the others and the action. -/
lemma issueAll_cons_bind (p : Primitive) (ps : List Primitive) (f : Unit → Action σ α) :
    issueAll (p :: ps) >>= f = Action.issue p >>= fun _ => issueAll ps >>= f := by
  rw [issueAll, bind_assoc]

/-- Without operations there is only what follows them. -/
lemma issueAll_nil_bind (f : Unit → Action σ α) : issueAll [] >>= f = f () := by
  rw [issueAll, pure_bind]

/-- Operations in a row keep everything that is said about the state. -/
lemma keeps_issueAll {I : σ → Prop} (ps : List Primitive) :
    Keeps (OnState I) (· ∈ ps) (issueAll ps) := by
  induction ps with
  | nil => exact .pure ()
  | cons p ps ih =>
    exact .bind (.issue List.mem_cons_self) fun _ => ih.mono fun _ => List.mem_cons_of_mem p

/-- A fault on the way lets its number of operations reach the board and no more. -/
lemma issueAll_of_fault {ps : List Primitive} {h : Held σ} {k : Nat} {f : Failure}
    (hfault : h.bus.fault = some ⟨k, f⟩) (hpresent : h.bus.board.present = true)
    (hk : k < ps.length) :
    issueAll ps h = .error f.error ⟨h.state, ⟨h.bus.board.replay (ps.take k), none⟩⟩ := by
  induction ps generalizing k h with
  | nil => exact absurd hk (Nat.not_lt_zero k)
  | cons p ps ih =>
    -- the fault comes one closer with each operation that passes
    cases k with
    | zero => rw [issueAll, bind_of_error (issue_of_fault_zero hfault p), List.take_zero,
        Board.replay_nil]
    | succ k =>
      rw [issueAll, bind_of_ok (issue_of_fault_succ hfault hpresent p),
        ih rfl (by simpa using hpresent) (Nat.lt_of_succ_lt_succ hk)]
      rfl

/-- Without a fault on the way all operations reach the board. -/
lemma issueAll_of_pass (ps : List Primitive) {h : Held σ} (hpresent : h.bus.board.present = true)
    (hpass : ∀ k f, h.bus.fault = some ⟨k, f⟩ → ps.length ≤ k) :
    ∃ fault, issueAll ps h = .ok () ⟨h.state, ⟨h.bus.board.replay ps, fault⟩⟩ := by
  induction ps generalizing h with
  | nil => exact ⟨h.bus.fault, rfl⟩
  | cons p ps ih =>
    cases hfault : h.bus.fault with
    | none =>
      rw [issueAll, bind_of_ok (issue_of_fault_none hfault hpresent p)]
      exact ih (by simpa using hpresent) (by simp)
    | some f =>
      obtain ⟨k, f⟩ := f
      have hk := hpass k f hfault
      obtain ⟨k, rfl⟩ := Nat.exists_eq_succ_of_ne_zero (Nat.ne_zero_of_lt hk)
      rw [issueAll, bind_of_ok (issue_of_fault_succ hfault hpresent p)]
      refine ih (by simpa using hpresent) fun k' f' heq => ?_
      cases heq
      exact Nat.le_of_succ_le_succ hk

/-- On a board in its slot and without a fault in wait all operations are carried out. -/
lemma issueAll_of_fault_none (ps : List Primitive) (state : σ) {b : Board}
    (hpresent : b.present = true) :
    issueAll ps ⟨state, .new b⟩ = .ok () ⟨state, .new (b.replay ps)⟩ := by
  induction ps generalizing b with
  | nil => rfl
  | cons p ps ih =>
    have hfirst := issue_of_fault_none (h := ⟨state, .new b⟩) rfl hpresent p
    rw [issueAll, bind_of_ok hfirst]
    exact ih (by simpa [Bus.new] using hpresent)

/-- A list of operations and then a change of the host's state: a fault on the way leaves the state
as it was. -/
lemma after_issueAll_change (ps : List Primitive) (f : σ → σ) {h : Held σ}
    (hpresent : h.bus.board.present = true) :
    (∃ k g, h.bus.fault = some ⟨k, g⟩ ∧ k < ps.length ∧
        (after (issueAll ps >>= fun _ => change f) h).state = h.state ∧
        (after (issueAll ps >>= fun _ => change f) h).bus.board = h.bus.board.replay (ps.take k)) ∨
      (∀ k g, h.bus.fault = some ⟨k, g⟩ → ps.length ≤ k) ∧
        (after (issueAll ps >>= fun _ => change f) h).state = f h.state ∧
        (after (issueAll ps >>= fun _ => change f) h).bus.board = h.bus.board.replay ps := by
  by_cases hcut : ∃ k g, h.bus.fault = some ⟨k, g⟩ ∧ k < ps.length
  · obtain ⟨k, g, hfault, hk⟩ := hcut
    refine .inl ⟨k, g, hfault, hk, ?_⟩
    rw [after_bind_of_error (issueAll_of_fault hfault hpresent hk)]
    exact ⟨rfl, rfl⟩
  · have hpass : ∀ k g, h.bus.fault = some ⟨k, g⟩ → ps.length ≤ k := fun k g hfault =>
      Nat.le_of_not_lt fun hk => hcut ⟨k, g, hfault, hk⟩
    obtain ⟨fault, hall⟩ := issueAll_of_pass ps hpresent hpass
    refine .inr ⟨hpass, ?_⟩
    rw [after_bind_of_ok hall]
    exact ⟨rfl, rfl⟩

/-- Without a fault in wait whatever follows comes after the whole list. -/
lemma after_issueAll_bind {α : Type} {I : σ → Prop} {S : Primitive → Prop} {ps : List Primitive}
    {f : Unit → Action σ α} (hf : Keeps (OnState I) S (f ())) {h : Held σ} (hI : I h.state)
    (hpresent : h.bus.board.present = true) (hfault : h.bus.fault = none) :
    ∃ qs, (after (issueAll ps >>= f) h).bus.board = h.bus.board.replay (ps ++ qs) := by
  obtain ⟨fault, hall⟩ := issueAll_of_pass ps hpresent (by simp [hfault])
  obtain ⟨_, qs, _, hboard⟩ :=
    hf.held (h := ⟨h.state, ⟨h.bus.board.replay ps, fault⟩⟩) hI
  refine ⟨qs, ?_⟩
  rw [Board.replay_append, ← hboard, after_bind_of_ok hall]

end Action

end PulseSequencer
