import Mathlib.Tactic
import PulseSequencer.Error

/-!
# Results that may be refused

Most computations of this library answer with a value or with an error. These lemmas take an answer
apart: what a sequence of computations, or one over a list, says of its parts when it succeeds.

* `Result.bind_eq_ok`, `Result.check_eq_ok`: both parts of a sequence of computations succeed.
* `Result.forall₂_of_mapM`: a computation over a list succeeds on each of its elements.
* `Result.exists_mapM_iff`, `Result.exists_of_mapM_error`: it succeeds if it does so on each of
  them, and fails as it does on one of them.
-/

namespace PulseSequencer.Result

variable {ε α β : Type}

/-- A computation followed by another one succeeds exactly when both do. -/
lemma bind_eq_ok {x : Except ε α} {f : α → Except ε β} {b : β} :
    x >>= f = .ok b ↔ ∃ a, x = .ok a ∧ f a = .ok b := by
  cases x with
  | error e => simp [bind, Except.bind]
  | ok a => simp [bind, Except.bind]

/-- A check before a computation. -/
lemma check_eq_ok {x : Except ε Unit} {f : Unit → Except ε β} {b : β} :
    x >>= f = .ok b ↔ x = .ok () ∧ f () = .ok b :=
  bind_eq_ok.trans ⟨fun ⟨_, h⟩ => h, fun h => ⟨(), h⟩⟩

/-- Computations that begin alike and go on alike. -/
lemma bind_congr {x : Except ε α} {f g : α → Except ε β} (h : ∀ a, x = .ok a → f a = g a) :
    x >>= f = x >>= g := by
  cases x with
  | error e => rfl
  | ok a => exact h a rfl

/-- A computation that is refused under a condition, and goes on otherwise. -/
lemma unless_eq_ok {c : Prop} [Decidable c] {e : ε} {f : Unit → Except ε β} {b : β} :
    (if c then throw e >>= f else f ()) = .ok b ↔ ¬c ∧ f () = .ok b := by
  by_cases h : c
  · simp [h, bind, Except.bind, throw, throwThe, MonadExceptOf.throw]
  · simp [h]

/-- A value that is changed afterwards. -/
lemma map_eq_ok {x : Except ε α} {f : α → β} {b : β} :
    f <$> x = .ok b ↔ ∃ a, x = .ok a ∧ f a = b := by
  cases x with
  | error e => simp [Functor.map, Except.map]
  | ok a => simp [Functor.map, Except.map]

/-- A computation that succeeds over a list answers each of its elements. -/
lemma forall₂_of_mapM {f : α → Except ε β} {xs : List α} {ys : List β}
    (h : xs.mapM f = .ok ys) : List.Forall₂ (fun x y => f x = .ok y) xs ys := by
  induction xs generalizing ys with
  | nil =>
    cases h
    exact .nil
  | cons x xs ih =>
    rw [List.mapM_cons, bind_eq_ok] at h
    obtain ⟨y, hy, h⟩ := h
    obtain ⟨ys', hys, h⟩ := bind_eq_ok.mp h
    cases h
    exact .cons hy (ih hys)

/-- A computation over a list succeeds exactly if it does so on each of its elements. -/
lemma exists_mapM_iff {f : α → Except ε β} {xs : List α} :
    (∃ ys, xs.mapM f = .ok ys) ↔ ∀ x ∈ xs, ∃ y, f x = .ok y := by
  induction xs with
  | nil => exact ⟨fun _ => nofun, fun _ => ⟨[], rfl⟩⟩
  | cons x xs ih =>
    rw [List.mapM_cons, List.forall_mem_cons, ← ih]
    constructor
    · rintro ⟨ys, h⟩
      obtain ⟨y, hy, h⟩ := bind_eq_ok.mp h
      obtain ⟨ys', hys, -⟩ := bind_eq_ok.mp h
      exact ⟨⟨y, hy⟩, ys', hys⟩
    · rintro ⟨⟨y, hy⟩, ys, hys⟩
      exact ⟨y :: ys, bind_eq_ok.mpr ⟨y, hy, bind_eq_ok.mpr ⟨ys, hys, rfl⟩⟩⟩

/-- A computation over a list fails as it does on one of its elements. -/
lemma exists_of_mapM_error {f : α → Except ε β} {xs : List α} {e : ε}
    (h : xs.mapM f = .error e) : ∃ x ∈ xs, f x = .error e := by
  induction xs with
  | nil => cases h
  | cons x xs ih =>
    rw [List.mapM_cons] at h
    cases hx : f x with
    | error e' =>
      rw [hx] at h
      cases h
      exact ⟨x, List.mem_cons_self, hx⟩
    | ok y =>
      cases hxs : xs.mapM f with
      | error e' =>
        rw [hx, hxs] at h
        cases h
        obtain ⟨x', hx', he⟩ := ih hxs
        exact ⟨x', List.mem_cons_of_mem x hx', he⟩
      | ok ys =>
        rw [hx, hxs] at h
        cases h

/-- Each answer of a computation over a list belongs to one of its elements. -/
lemma exists_of_mem_right {R : α → β → Prop} {xs : List α} {ys : List β}
    (h : List.Forall₂ R xs ys) {y : β} (hy : y ∈ ys) : ∃ x ∈ xs, R x y := by
  induction h with
  | nil => cases hy
  | @cons x y' xs ys hxy _ ih =>
    cases hy with
    | head => exact ⟨x, List.mem_cons_self, hxy⟩
    | tail _ hy =>
      obtain ⟨x', hx', hr⟩ := ih hy
      exact ⟨x', List.mem_cons_of_mem x hx', hr⟩

/-- Answers to elements that are in order are in order, if two of them always are. -/
lemma pairwise_of_forall₂ {R : α → β → Prop} {S : α → α → Prop} {T : β → β → Prop}
    {xs : List α} {ys : List β} (h : List.Forall₂ R xs ys) (sorted : xs.Pairwise S)
    (step : ∀ {x y x' y'}, R x y → R x' y' → S x x' → T y y') : ys.Pairwise T := by
  induction h with
  | nil => exact .nil
  | @cons x y xs ys hxy hrest ih =>
    obtain ⟨hfirst, hsorted⟩ := List.pairwise_cons.mp sorted
    refine .cons (fun y' hy' => ?_) (ih hsorted)
    obtain ⟨x', hx', hr⟩ := exists_of_mem_right hrest hy'
    exact step hxy hr (hfirst x' hx')

/-- The last answer of a computation over a list is that to its last element. -/
lemma rel_getLast? {R : α → β → Prop} {xs : List α} {ys : List β} (h : List.Forall₂ R xs ys) :
    Option.Rel R xs.getLast? ys.getLast? := by
  induction h with
  | nil => exact .none
  | @cons x y xs ys hxy _ ih =>
    rw [List.getLast?_cons, List.getLast?_cons]
    cases hx : xs.getLast? <;> cases hy : ys.getLast? <;> rw [hx, hy] at ih <;> cases ih
    case none.none => exact .some hxy
    case some.some h => exact .some h

/-- A computation that folds a list succeeds if each of its steps does. -/
lemma exists_foldlM {f : β → α → Except ε β} (hf : ∀ b a, ∃ b', f b a = .ok b') (xs : List α)
    (b : β) : ∃ b', xs.foldlM f b = .ok b' := by
  induction xs generalizing b with
  | nil => exact ⟨b, rfl⟩
  | cons a xs ih =>
    obtain ⟨b', hb'⟩ := hf b a
    obtain ⟨b'', hb''⟩ := ih b'
    exact ⟨b'', by rw [List.foldlM_cons, bind_eq_ok]; exact ⟨b', hb', hb''⟩⟩

end PulseSequencer.Result
