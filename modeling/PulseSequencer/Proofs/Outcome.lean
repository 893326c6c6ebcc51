import PulseSequencer.Proofs.Action
import PulseSequencer.Proofs.Bus

/-!
# What an action brings to the board

`Brings x s E F` says of an action `x` on a host state `s` what it does on every bus: if it
succeeds, the operations that it brought to the board, its answer and the state that it leaves have
`E`; if it fails, an operation has failed on the bus, and the operations before that one and the
state that is left have `F`. An action that refuses does so on every bus and has touched nothing.

* `Brings`, `Refuses`: the judgments, with a rule for each way in which actions are put together.
-/

namespace PulseSequencer

/-! ## Actions -/

/-- The operations that put a value on the readout wire and read it. -/
def Wire.asking (select : Readout) : List Primitive :=
  [.setWire Endpoint.control select.code Control.readout, .commit, .latch,
    .readWire Endpoint.readout]

/-- Unless an operation reached the board, the state is as it was. -/
def Untouched {σ : Type} (s : σ) (ps : List Primitive) (s' : σ) : Prop := ps = [] → s' = s

section
variable {σ τ α β : Type} {s : σ} {E : α → List Primitive → σ → Prop}
  {F : List Primitive → σ → Prop}

/-- If `x` succeeds, its answer, the operations that it brought to the board and the state that it
leaves have `E`. If it fails, an operation failed, and the operations before it and the state have
`F`. -/
def Brings (x : Action σ α) (s : σ) (E : α → List Primitive → σ → Prop)
    (F : List Primitive → σ → Prop) : Prop :=
  ∀ bus : Bus, match x ⟨s, bus⟩ with
    | .ok a h => ∃ ps, E a ps h.state ∧ bus.Carries ps h.bus
    | .error e h => ∃ ps, F ps h.state ∧ bus.Fails ps e h.bus

/-- On every bus `x` is refused, for the same reason, and leaves all as it was. -/
def Refuses (x : Action σ α) (s : σ) : Prop := ∃ e, ∀ bus : Bus, x ⟨s, bus⟩ = .error e ⟨s, bus⟩

/-- What `x` does is what `D` says: it is refused where `D` lets nothing be done, and otherwise
brings operations to the board and leaves a state that `D` relates. -/
def Follows (x : Action σ α) (s : σ) (D F : List Primitive → σ → Prop) : Prop :=
  (Refuses x s ∧ ∀ ps s', ¬D ps s') ∨ Brings x s (fun _ => D) F

namespace Brings

/-- What is left of an action that succeeds. -/
lemma of_ok {x : Action σ α} (hx : Brings x s E F) {bus : Bus} {a : α} {h : Held σ}
    (hok : x ⟨s, bus⟩ = .ok a h) : ∃ ps, E a ps h.state ∧ bus.Carries ps h.bus := by
  have hbus := hx bus
  rw [hok] at hbus
  exact hbus

/-- What is left of an action that fails. -/
lemma of_error {x : Action σ α} (hx : Brings x s E F) {bus : Bus} {e : Error} {h : Held σ}
    (herror : x ⟨s, bus⟩ = .error e h) : ∃ ps, F ps h.state ∧ bus.Fails ps e h.bus := by
  have hbus := hx bus
  rw [herror] at hbus
  exact hbus

/-- On a board in its slot an action succeeds if no fault lies in wait. -/
lemma ok_of_fault_none {x : Action σ α} (hx : Brings x s E F) {bus : Bus}
    (hfault : bus.fault = none) (hpresent : bus.board.present = true) :
    ∃ a h ps, x ⟨s, bus⟩ = .ok a h ∧ E a ps h.state ∧ bus.Carries ps h.bus := by
  cases hr : x ⟨s, bus⟩ with
  | ok a h =>
    obtain ⟨ps, hE, hps⟩ := hx.of_ok hr
    exact ⟨a, h, ps, rfl, hE, hps⟩
  | error e h =>
    obtain ⟨ps, _, hfails⟩ := hx.of_error hr
    rw [(hfails.absent hfault).1] at hpresent
    cases hpresent

/-- A result alone brings nothing to the board. -/
lemma pure {a : α} (h : E a [] s) : Brings (pure a) s E F := fun bus => ⟨[], h, .nil bus⟩

/-- One operation brings itself, or nothing if it fails. -/
lemma issue {p : Primitive} {E : p.Reply → List Primitive → σ → Prop} (hF : F [] s)
    (hE : ∀ reply, E reply [p] s) : Brings (Action.issue p) s E F := by
  intro bus
  simp only [Action.issue]
  cases hp : bus.issue p with
  | mk r bus' =>
    cases r with
    | ok reply => exact ⟨[p], hE reply, .single hp⟩
    | error e => exact ⟨[], hF, bus, p, .nil bus, hp⟩

/-- What follows goes on from what the first part did. -/
lemma bind {x : Action σ β} {f : β → Action σ α}
    (hx : Brings x s (fun b ps s' => Brings (f b) s' (fun a qs => E a (ps ++ qs))
      (fun qs => F (ps ++ qs))) F) : Brings (x >>= f) s E F := by
  intro bus
  cases hr : x ⟨s, bus⟩ with
  | error e h =>
    rw [bind_of_error hr]
    exact hx.of_error hr
  | ok b h =>
    obtain ⟨ps, hf, hps⟩ := hx.of_ok hr
    have hf := hf h.bus
    rw [bind_of_ok hr]
    -- the rest starts on the bus that the first part left
    cases hr' : f b h with
    | error e h' =>
      rw [hr'] at hf
      obtain ⟨qs, hF, hqs⟩ := hf
      exact ⟨ps ++ qs, hF, .append hps hqs⟩
    | ok a h' =>
      rw [hr'] at hf
      obtain ⟨qs, hE, hqs⟩ := hf
      exact ⟨ps ++ qs, hE, hps.append hqs⟩

/-- What is said about an action may be weakened. -/
lemma mono {E' : α → List Primitive → σ → Prop} {F' : List Primitive → σ → Prop} {x : Action σ α}
    (hE : ∀ a ps s', E a ps s' → E' a ps s') (hF : ∀ ps s', F ps s' → F' ps s')
    (hx : Brings x s E F) : Brings x s E' F' := by
  intro bus
  cases hr : x ⟨s, bus⟩ with
  | ok a h =>
    obtain ⟨ps, h, hps⟩ := hx.of_ok hr
    exact ⟨ps, hE _ _ _ h, hps⟩
  | error e h =>
    obtain ⟨ps, h, hps⟩ := hx.of_error hr
    exact ⟨ps, hF _ _ h, hps⟩

/-- An action that depends on a condition brings what the branches bring. -/
lemma ite {c : Prop} [Decidable c] {x y : Action σ α} (hx : c → Brings x s E F)
    (hy : ¬c → Brings y s E F) : Brings (if c then x else y) s E F := by
  by_cases hc : c
  · rw [if_pos hc]
    exact hx hc
  · rw [if_neg hc]
    exact hy hc

/-- A change of the state brings nothing to the board. -/
lemma change {f : σ → σ} {E : Unit → List Primitive → σ → Prop} (h : E () [] (f s)) :
    Brings (Action.change f) s E F := fun bus => ⟨[], h, .nil bus⟩

/-- A change of the state, and what follows on the changed one. -/
lemma change_bind {f : σ → σ} {g : Unit → Action σ α} (h : Brings (g ()) (f s) E F) :
    Brings (Action.change f >>= g) s E F := fun bus => h bus

/-- Reading the state, and what follows on it. -/
lemma state_bind {f : σ → Action σ α} (h : Brings (f s) s E F) :
    Brings (Action.state >>= f) s E F := fun bus => h bus

/-- A value that is there, and what follows with it. -/
lemma ofExcept_bind {r : Except Error β} {b : β} {f : β → Action σ α} (hr : r = .ok b)
    (hf : Brings (f b) s E F) : Brings (Action.ofExcept r >>= f) s E F := by
  rw [hr]
  exact fun bus => hf bus

/-- One operation, and what follows with its reply. -/
lemma issue_bind {p : Primitive} {f : p.Reply → Action σ α} (hF : F [] s)
    (hf : ∀ reply, Brings (f reply) s (fun a ps => E a (p :: ps)) fun ps => F (p :: ps)) :
    Brings (Action.issue p >>= f) s E F := .bind (.issue hF hf)

/-- A write is a set and a commit, either of which may fail, and what follows. -/
lemma write_bind {address : Address} {value mask : Word} {f : Unit → Action σ α} (hF : F [] s)
    (hset : F [.setWire address value mask] s)
    (hf : Brings (f ()) s (fun a ps => E a (.setWire address value mask :: .commit :: ps))
      fun ps => F (.setWire address value mask :: .commit :: ps)) :
    Brings (Wire.write address value mask >>= f) s E F :=
  .bind (.issue_bind hF fun _ => .issue hset fun _ => hf)

/-- A readout asks for its quantity and answers with a word. -/
lemma readout {select : Readout} {E : Word → List Primitive → σ → Prop} (hF : ∀ ps, F ps s)
    (hE : ∀ word, E word (Wire.asking select) s) : Brings (Wire.readout select) s E F :=
  .bind (.issue_bind (hF _) fun _ => .issue (hF _) fun _ =>
    .issue_bind (hF _) fun _ => .issue (hF _) hE)

/-- An action brings the same if its answer is not used. -/
lemma discard {x : Action σ α} {E : Unit → List Primitive → σ → Prop}
    (hx : Brings x s (fun _ => E ()) F) : Brings (do let _ ← x) s E F := by
  refine .bind (hx.mono (fun _ ps s' h => .pure ?_) fun _ _ h => h)
  rw [List.append_nil]
  exact h

/-- An action on a part of the state brings the same, and puts the part back. -/
lemma focus {t : τ} {get : τ → σ} {put : τ → σ → τ} {x : Action σ α}
    {E : α → List Primitive → τ → Prop} {F : List Primitive → τ → Prop}
    (h : Brings x (get t) (fun a ps s => E a ps (put t s)) fun ps s => F ps (put t s)) :
    Brings (Action.focus get put x) t E F := by
  intro bus
  cases hr : x ⟨get t, bus⟩ with
  | ok a k =>
    rw [Action.focus_of_ok hr]
    exact h.of_ok hr
  | error e k =>
    rw [Action.focus_of_error hr]
    exact h.of_error hr

end Brings

/-- The state as it was is untouched, whatever reached the board. -/
lemma untouched_self (ps : List Primitive) : Untouched s ps s := fun _ => rfl

/-- After an operation that reached the board any state may be left. -/
lemma untouched_cons (p : Primitive) (ps : List Primitive) (s' : σ) : Untouched s (p :: ps) s' :=
  nofun

namespace Refuses

/-- An error alone is a refusal. -/
lemma throw (e : Error) : Refuses (throw e : Action σ α) s := ⟨e, fun _ => rfl⟩

/-- What follows a refusal is refused. -/
lemma bind {x : Action σ β} {f : β → Action σ α} (hx : Refuses x s) : Refuses (x >>= f) s := by
  obtain ⟨e, he⟩ := hx
  exact ⟨e, fun bus => bind_of_error (he bus) f⟩

/-- An error in place of a value is a refusal. -/
lemma ofExcept {r : Except Error α} {e : Error} (hr : r = .error e) :
    Refuses (Action.ofExcept r) s := by
  rw [hr]
  exact ⟨e, fun _ => rfl⟩

/-- A value that is there does not refuse. -/
lemma ofExcept_bind {r : Except Error β} {b : β} {f : β → Action σ α} (hr : r = .ok b)
    (hf : Refuses (f b) s) : Refuses (Action.ofExcept r >>= f) s := by
  rw [hr]
  exact hf

/-- Reading the state does not refuse. -/
lemma state_bind {f : σ → Action σ α} (hf : Refuses (f s) s) : Refuses (Action.state >>= f) s := hf

/-- A refusal on a part of the state is a refusal on the whole. -/
lemma focus {t : τ} {get : τ → σ} {put : τ → σ → τ} {x : Action σ α} (hput : put t (get t) = t)
    (h : Refuses x (get t)) : Refuses (Action.focus get put x) t := by
  obtain ⟨e, he⟩ := h
  refine ⟨e, fun bus => ?_⟩
  rw [Action.focus_of_error (he bus), hput]

end Refuses

namespace Follows

variable {D : List Primitive → σ → Prop} {x : Action σ α}

/-- What is left of an action that succeeds is what its relation says. -/
lemma of_ok (hx : Follows x s D F) {bus : Bus} {a : α} {h : Held σ} (hok : x ⟨s, bus⟩ = .ok a h) :
    ∃ ps, D ps h.state ∧ bus.Carries ps h.bus := by
  rcases hx with ⟨⟨e, he⟩, -⟩ | hx
  · rw [he] at hok
    cases hok
  · exact hx.of_ok hok

/-- An action that fails was refused, or an operation of it failed. -/
lemma of_error (hx : Follows x s D F) {bus : Bus} {e : Error} {h : Held σ}
    (herror : x ⟨s, bus⟩ = .error e h) :
    h = ⟨s, bus⟩ ∨ ∃ ps, F ps h.state ∧ bus.Fails ps e h.bus := by
  rcases hx with ⟨⟨e', he'⟩, -⟩ | hx
  · rw [he'] at herror
    cases herror
    exact .inl rfl
  · exact .inr (hx.of_error herror)

/-- On a board in its slot and without a fault in wait an action succeeds exactly if there is
something for it to do. -/
lemma ok_iff (hx : Follows x s D F) {bus : Bus} (hfault : bus.fault = none)
    (hpresent : bus.board.present = true) :
    (∃ a h, x ⟨s, bus⟩ = .ok a h) ↔ ∃ ps s', D ps s' := by
  constructor
  · rintro ⟨a, h, hok⟩
    obtain ⟨ps, hD, -⟩ := hx.of_ok hok
    exact ⟨ps, h.state, hD⟩
  · rintro ⟨ps, s', hD⟩
    rcases hx with ⟨-, hnone⟩ | hx
    · exact absurd hD (hnone ps s')
    · obtain ⟨a, h, -, hok, -, -⟩ := hx.ok_of_fault_none hfault hpresent
      exact ⟨a, h, hok⟩

/-- A part of the state is followed as the whole is, if the part determines it. -/
lemma focus {t : τ} {get : τ → σ} {put : τ → σ → τ} {x : Action σ α}
    {D F : List Primitive → σ → Prop} {D' F' : List Primitive → τ → Prop} (hput : put t (get t) = t)
    (hD : ∀ ps s, D ps s → D' ps (put t s)) (hD' : ∀ ps t', D' ps t' → ∃ s, D ps s)
    (hF : ∀ ps s, F ps s → F' ps (put t s)) (hx : Follows x (get t) D F) :
    Follows (Action.focus get put x) t D' F' := by
  rcases hx with ⟨hx, hnone⟩ | hx
  · refine .inl ⟨hx.focus hput, fun ps t' hdoes => ?_⟩
    obtain ⟨s, hs⟩ := hD' ps t' hdoes
    exact hnone ps s hs
  · exact .inr (.focus (hx.mono (fun _ => hD) hF))

/-- An action follows the same relation if its answer is not used. -/
lemma discard (hx : Follows x s D F) : Follows (do let _ ← x) s D F :=
  hx.imp (fun h => ⟨h.1.bind, h.2⟩) fun h => h.discard

end Follows

end

end PulseSequencer
