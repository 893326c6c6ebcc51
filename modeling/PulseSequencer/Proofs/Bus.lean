import PulseSequencer.Bus
import PulseSequencer.Proofs.Board.Replay

/-!
# What happens on a bus

Operations are carried to the board one after the other until one of them fails. A failure is one
that lay in wait, or the board was out of its slot.

* `BusEvent`: what happens to the board and on the way to it, from outside.
* `Error.OfBus`: the errors that operations on a bus return.
* `Bus.Only`, `Bus.Losing`: which failures may lie in wait.
* `Bus.Carries`, `Bus.Fails`: operations that a bus carries to the board, and those before a
  failure.
-/

namespace PulseSequencer

/-- What happens to the board and on the way to it, from outside. -/
inductive BusEvent where
  | unplug
  | plug
  | setDone (done : Bool)
  | setRepetitions (repetitions : Word)
  | pushPipe (address : Address) (bytes : List Byte)
  /-- A fault lies in wait from now on, or none does. -/
  | expect (fault : Option Fault)

/-- The bus after an event. -/
def BusEvent.apply : BusEvent → Bus → Bus
  | unplug, b => b.onBoard Board.unplug
  | plug, b => b.onBoard Board.plug
  | setDone done, b => b.onBoard (·.setDone done)
  | setRepetitions repetitions, b => b.onBoard (·.setRepetitions repetitions)
  | pushPipe address bytes, b => b.onBoard (·.pushPipe address bytes)
  | expect fault, b => { b with fault }

/-- An error that an operation on a bus returns. -/
def Error.OfBus (e : Error) : Prop := ∃ f : Failure, e = f.error

namespace Error

variable {e : Error}

/-- The bus reports transport faults, and a worker may be killed in it. -/
lemma ofBus_iff : e.OfBus ↔ (∃ f, e = .transport f) ∨ e = .trap .killed := by
  constructor
  · rintro ⟨f, rfl⟩
    cases f with
    | reported f => exact .inl ⟨f, rfl⟩
    | fatal => exact .inr rfl
  · rintro (⟨f, rfl⟩ | rfl)
    · exact ⟨.reported f, rfl⟩
    · exact ⟨.fatal, rfl⟩

/-- Only the loss of the board is a disconnection. -/
lemma isDisconnection_iff : e.isDisconnection = true ↔ e = .transport .disconnected := by
  constructor
  · intro h
    unfold isDisconnection at h
    split at h
    · rfl
    · cases h
  · rintro rfl
    rfl

/-- A disconnection is reported by the bus. -/
lemma ofBus_of_isDisconnection (h : e.isDisconnection = true) : e.OfBus :=
  ⟨.reported .disconnected, isDisconnection_iff.mp h⟩

end Error

namespace Bus

/-- Only failures with `A` lie in wait. -/
def Only (A : Failure → Prop) (b : Bus) : Prop := ∀ f, b.fault = some f → A f.failure

/-- Faults in wait do nothing else than to lose the board. -/
def Losing (b : Bus) : Prop := ∀ f, b.fault = some f → f.failure = .reported .disconnected

/-- The bus carries operations to the board in order, which leads to another one. -/
inductive Carries : Bus → List Primitive → Bus → Prop where
  | nil (b : Bus) : Carries b [] b
  | cons {b b₁ b₂ : Bus} {p : Primitive} {reply : p.Reply} {ps : List Primitive}
      (first : b.issue p = (.ok reply, b₁)) (rest : Carries b₁ ps b₂) : Carries b (p :: ps) b₂

/-- The bus carries operations to the board, and the next one fails with `e`. -/
def Fails (b : Bus) (ps : List Primitive) (e : Error) (b' : Bus) : Prop :=
  ∃ b₁ p, b.Carries ps b₁ ∧ b₁.issue p = (.error e, b')

variable {A : Failure → Prop} {b b' b₁ b₂ : Bus} {p : Primitive} {ps qs : List Primitive}
  {e : Error}

/-- Without a fault every condition on faults holds. -/
lemma only_of_fault_none (h : b.fault = none) : b.Only A := by
  intro f hf
  rw [h] at hf
  cases hf

/-- Without a fault the board is not lost. -/
lemma losing_of_fault_none (h : b.fault = none) : b.Losing :=
  only_of_fault_none (A := (· = .reported .disconnected)) h

/-- An operation that answers has reached a board in its slot, and no fault was due. -/
lemma issue_of_ok {reply : p.Reply} (h : b.issue p = (.ok reply, b')) :
    b.board.present = true ∧ b'.board = b.board.carry p ∧ (b.fault = none → b'.fault = none) ∧
      ∀ A, b.Only A → b'.Only A := by
  obtain ⟨board, fault⟩ := b
  by_cases hpresent : board.present = true
  -- there is no fault in wait, or one is due now, or one is due after `n` more operations
  · rcases fault with _ | ⟨_ | n, f⟩
    · simp only [issue, trip, if_pos hpresent] at h
      cases h
      exact ⟨hpresent, rfl, fun _ => rfl, fun _ _ => only_of_fault_none rfl⟩
    · simp only [issue, trip] at h
      cases h
    · simp only [issue, trip, if_pos hpresent] at h
      cases h
      refine ⟨hpresent, rfl, fun h => absurd h (Option.some_ne_none _), fun A honly g hg => ?_⟩
      cases hg
      exact honly ⟨n + 1, f⟩ rfl
  · rcases fault with _ | ⟨_ | n, f⟩
    all_goals
      simp only [issue, trip, if_neg hpresent] at h
      cases h

/-- An operation that fails has not reached the board: the board was out of its slot, or a fault was
due. -/
lemma issue_of_error (h : b.issue p = (.error e, b')) :
    b'.board = b.board ∧ (b.fault = none → b.board.present = false ∧ b' = b) ∧
      ∃ f : Failure, e = f.error ∧
        ∀ A, A (.reported .disconnected) → b.Only A → A f ∧ b'.Only A := by
  obtain ⟨board, fault⟩ := b
  -- a fault in wait is due now, or later, which is as good as none
  rcases fault with _ | ⟨_ | n, f⟩
  · by_cases hpresent : board.present = true
    · simp only [issue, trip, if_pos hpresent] at h
      cases h
    · simp only [issue, trip, if_neg hpresent] at h
      cases h
      have habsent := Bool.eq_false_of_not_eq_true hpresent
      exact ⟨rfl, fun _ => ⟨habsent, rfl⟩, .reported .disconnected, rfl, fun _ hA h => ⟨hA, h⟩⟩
  · simp only [issue, trip] at h
    cases h
    exact ⟨rfl, fun h => absurd h (Option.some_ne_none _), f, rfl, fun _ _ honly =>
      ⟨honly _ rfl, only_of_fault_none rfl⟩⟩
  · by_cases hpresent : board.present = true
    · simp only [issue, trip, if_pos hpresent] at h
      cases h
    · simp only [issue, trip, if_neg hpresent] at h
      cases h
      refine ⟨rfl, fun h => absurd h (Option.some_ne_none _), .reported .disconnected, rfl,
        fun A hA honly => ⟨hA, fun g hg => ?_⟩⟩
      cases hg
      exact honly ⟨n + 1, f⟩ rfl

namespace Carries

/-- An operation that succeeds is carried out. -/
lemma single {reply : p.Reply} (h : b.issue p = (.ok reply, b')) : b.Carries [p] b' :=
  .cons h (.nil b')

/-- Two runs of operations are carried out in a row. -/
lemma append (h : b.Carries ps b₁) (h' : b₁.Carries qs b₂) : b.Carries (ps ++ qs) b₂ := by
  induction h with
  | nil b => exact h'
  | cons first _ ih => exact .cons first (ih h')

/-- The board ends up as if the operations had been carried out on it one after the other. -/
lemma board (h : b.Carries ps b') : b'.board = b.board.replay ps := by
  induction h with
  | nil b => rfl
  | cons first _ ih => rw [ih, (issue_of_ok first).2.1, Board.replay_cons]

/-- Without a fault at first there is none afterwards. -/
lemma fault_none (h : b.Carries ps b') (hfault : b.fault = none) : b'.fault = none := by
  induction h with
  | nil b => exact hfault
  | cons first _ ih => exact ih ((issue_of_ok first).2.2.1 hfault)

/-- The condition on faults stays true. -/
lemma only (h : b.Carries ps b') (honly : b.Only A) : b'.Only A := by
  induction h with
  | nil b => exact honly
  | cons first _ ih => exact ih ((issue_of_ok first).2.2.2 A honly)

/-- If faults lose the board, they still do afterwards. -/
lemma losing (h : b.Carries ps b') (hlosing : b.Losing) : b'.Losing :=
  h.only (A := (· = .reported .disconnected)) hlosing

end Carries

namespace Fails

/-- Operations may be carried out before the run that fails. -/
lemma append (h : b.Carries ps b₁) (h' : b₁.Fails qs e b₂) : b.Fails (ps ++ qs) e b₂ := by
  obtain ⟨b₃, p, hqs, hp⟩ := h'
  exact ⟨b₃, p, h.append hqs, hp⟩

/-- Without a fault in wait an operation fails only if the board is out of its slot, and it is the
first one. -/
lemma absent (h : b.Fails ps e b') (hfault : b.fault = none) :
    b.board.present = false ∧ ps = [] ∧ b' = b := by
  obtain ⟨b₁, p, hps, hp⟩ := h
  have failed := issue_of_error hp
  cases hps with
  | nil => exact ⟨(failed.2.1 hfault).1, rfl, (failed.2.1 hfault).2⟩
  | cons first rest =>
    -- a board that answered stays in its slot
    have hcarried := Carries.cons first rest
    have habsent := (failed.2.1 (hcarried.fault_none hfault)).1
    rw [hcarried.board, Board.present_replay, (issue_of_ok first).1] at habsent
    cases habsent

/-- The failure lay in wait, or the board was out of its slot. -/
lemma only (h : b.Fails ps e b') (hA : A (.reported .disconnected)) (honly : b.Only A) :
    ∃ f : Failure, e = f.error ∧ A f ∧ b'.Only A := by
  obtain ⟨b₁, p, hps, hp⟩ := h
  obtain ⟨-, -, f, hf, hrest⟩ := issue_of_error hp
  exact ⟨f, hf, hrest A hA (hps.only honly)⟩

/-- What fails on the bus fails with an error of the bus. -/
lemma ofBus (h : b.Fails ps e b') : e.OfBus := by
  obtain ⟨f, hf, -⟩ := h.only (A := fun _ => True) trivial fun _ _ => trivial
  exact ⟨f, hf⟩

/-- If nothing else can happen, a failure means that the board was lost. -/
lemma disconnected (h : b.Fails ps e b') (hlosing : b.Losing) :
    e = .transport .disconnected ∧ b'.Losing := by
  obtain ⟨f, rfl, rfl, hlosing'⟩ := h.only (A := (· = .reported .disconnected)) rfl hlosing
  exact ⟨rfl, hlosing'⟩

end Fails

end Bus

end PulseSequencer
