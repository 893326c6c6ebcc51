import Mathlib.Tactic
import PulseSequencer.Board

/-!
# Replaying primitive operations

Whatever is done over the bus, the board ends up as if the operations that reached it had been
carried out one after the other. Facts about the board are facts about such a list.

* `Board.carry`, `Board.replay`: the board after one operation and after a list of them.
* `Board.exists_fire`: a trigger changes the pipes only.
* `Board.log_replay`, `Board.present_replay`: the log grows by the list, and the board stays in its
  slot.
-/

namespace PulseSequencer.Board

/-- The board after an operation that it carried out. -/
def carry (b : Board) (p : Primitive) : Board := ((b.record p).perform p).2

/-- The board after operations that it carried out in order. -/
def replay (b : Board) (ps : List Primitive) : Board := ps.foldl carry b

/-- No operations leave the board. -/
@[simp] lemma replay_nil (b : Board) : b.replay [] = b := rfl

/-- Operations are carried out one after the other. -/
@[simp] lemma replay_cons (b : Board) (p : Primitive) (ps : List Primitive) :
    b.replay (p :: ps) = (b.carry p).replay ps := rfl

/-- Operations in two parts are carried out one part after the other. -/
@[simp] lemma replay_append (b : Board) (ps qs : List Primitive) :
    b.replay (ps ++ qs) = (b.replay ps).replay qs := List.foldl_append

/-- The last of some operations is carried out last. -/
lemma replay_concat (b : Board) (ps : List Primitive) (p : Primitive) :
    b.replay (ps ++ [p]) = (b.replay ps).carry p := by
  rw [replay_append]
  rfl

/-- A bit of the trigger changes nothing but the pipes, and looks at nothing else. -/
lemma exists_fire (bit : UInt8) : ∃ clear : (Address → List Byte) → Address → List Byte,
    ∀ b : Board, b.fire bit = { b with pipes := clear b.pipes } := by
  by_cases hcounts : bit = Pulse.resetCounts
  · exact ⟨fun pipes => setAt pipes Endpoint.counts [], fun b => by rw [fire, if_pos hcounts]⟩
  · by_cases htags : bit = Pulse.resetTimetags
    · exact ⟨fun pipes => setAt pipes Endpoint.timetags [], fun b => by
        rw [fire, if_neg hcounts, if_pos htags]⟩
    · exact ⟨id, fun b => by rw [fire, if_neg hcounts, if_neg htags]; rfl⟩

/-- An operation leaves one entry in the log. -/
@[simp] lemma log_carry (b : Board) (p : Primitive) : (b.carry p).log = b.log ++ [p] := by
  cases p with
  | trigger address bit =>
    obtain ⟨clear, hfire⟩ := exists_fire bit
    rw [carry, perform, hfire]
    rfl
  | _ => rfl

/-- No operation detaches the board. -/
@[simp] lemma present_carry (b : Board) (p : Primitive) : (b.carry p).present = b.present := by
  cases p with
  | trigger address bit =>
    obtain ⟨clear, hfire⟩ := exists_fire bit
    rw [carry, perform, hfire]
    rfl
  | _ => rfl

/-- The log grows by the operations that are carried out. -/
@[simp] lemma log_replay (b : Board) (ps : List Primitive) : (b.replay ps).log = b.log ++ ps := by
  induction ps generalizing b with
  | nil => simp
  | cons p ps ih => simp [ih]

/-- Operations in a row do not detach the board. -/
@[simp] lemma present_replay (b : Board) (ps : List Primitive) :
    (b.replay ps).present = b.present := by
  induction ps generalizing b with
  | nil => rfl
  | cons p ps ih => simp [ih]

end PulseSequencer.Board
