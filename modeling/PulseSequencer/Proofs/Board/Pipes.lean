import PulseSequencer.Proofs.Board.Replay
import PulseSequencer.Proofs.Word

/-!
# The bytes in the pipes

Bytes wait in a pipe until they are read or the pipe is cleared. The board tells how many 16-bit
words wait; what is read beyond the bytes that wait are zeros.

* `Board.length_pipeBytes`, `Board.pipeBytes_of_le`: the bytes that a read gives.
* `Board.latched_latch`, `Board.fillWord_of_total`: where the board tells what waits.
* `Board.toNat_fillWord_le`, `Board.toNat_fillWord`: what it tells.
* `Primitive.LeavesPipes`: operations that leave the pipes as they are.
* `Board.Draws`: operations that read whole words from a pipe, and no more than wait there.
-/

namespace PulseSequencer

/-- An operation that leaves the pipes as they are. -/
def Primitive.LeavesPipes : Primitive → Prop
  | setWire _ _ _ | commit | latch | readWire _ => True
  | trigger _ _ | writePipe _ _ | readPipe _ _ => False

namespace Board

variable {b : Board} {address : Address} {length : Nat} {ps qs : List Primitive}

/-- As many bytes are read as were asked for. -/
lemma length_pipeBytes (b : Board) (address : Address) (length : Nat) :
    (b.pipeBytes address length).length = length := by
  simp only [pipeBytes, List.length_append, List.length_replicate, List.length_take]
  omega

/-- If enough bytes wait, the first of them are read. -/
lemma pipeBytes_of_le (h : length ≤ (b.pipes address).length) :
    b.pipeBytes address length = (b.pipes address).take length := by
  rw [pipeBytes, List.length_take, Nat.min_eq_left h, Nat.sub_self]
  exact List.append_nil _

/-- A latch shows the selected quantity and the number of time tags that wait. -/
lemma latched_latch (b : Board) : (b.carry .latch).latched =
    setAt (setAt b.latched Endpoint.readout b.readoutValue) Endpoint.timetagTotal
      (b.fillWord Endpoint.timetags) := rfl

/-- A latch puts the words that wait in the pipe of time tags on a wire of their own. -/
lemma fillWord_of_total (b : Board) :
    (b.carry .latch).latched Endpoint.timetagTotal = b.fillWord Endpoint.timetags := by
  rw [latched_latch, setAt_same]

/-- The board never tells of more than waits in a pipe. -/
lemma toNat_fillWord_le (b : Board) (address : Address) :
    (b.fillWord address).toNat * 2 ≤ (b.pipes address).length := by
  have : (b.fillWord address).toNat ≤ (b.pipes address).length / 2 := by
    rw [fillWord, BitVec.toNat_ofNat]
    exact Nat.mod_le _ _
  omega

/-- Less than `2 ^ 33` bytes are told of, down to an even number. -/
lemma toNat_fillWord (h : (b.pipes address).length < 2 ^ 33) :
    (b.fillWord address).toNat = (b.pipes address).length / 2 := by
  rw [fillWord, BitVec.toNat_ofNat]
  exact Nat.mod_eq_of_lt (by omega)

/-- An operation that leaves the pipes leaves the bytes that wait in them. -/
lemma pipes_carry {p : Primitive} (hp : p.LeavesPipes) (b : Board) :
    (b.carry p).pipes = b.pipes := by
  cases p with
  | setWire | commit | latch | readWire => rfl
  | trigger | writePipe | readPipe => cases hp

/-- Operations that leave the pipes do so in a row. -/
lemma pipes_replay (h : ∀ p ∈ ps, p.LeavesPipes) (b : Board) : (b.replay ps).pipes = b.pipes := by
  induction ps generalizing b with
  | nil => rfl
  | cons p ps ih =>
    obtain ⟨hp, hps⟩ := List.forall_mem_cons.mp h
    rw [replay_cons, ih hps, pipes_carry hp]

/-- The operations that read a number of bytes from a pipe: none if there is nothing to read. -/
def reading (address : Address) (length : Nat) : List Primitive :=
  if length = 0 then [] else [.readPipe address length]

/-- Operations that read whole words of four bytes from a pipe and no more than wait there, after
others that leave the pipes as they are. -/
structure Draws (b : Board) (address : Address) (length : Nat) (ps : List Primitive) : Prop where
  whole : 4 ∣ length
  within : length ≤ (b.pipes address).length
  operations : ∃ asked, (∀ p ∈ asked, p.LeavesPipes) ∧ ps = asked ++ reading address length

namespace Draws

/-- Operations that leave the pipes draw nothing from any of them. -/
lemma zero (h : ∀ p ∈ ps, p.LeavesPipes) : b.Draws address 0 ps :=
  ⟨Nat.dvd_zero 4, Nat.zero_le _, ps, h, (List.append_nil ps).symm⟩

/-- What is read is gone, and all else is left. -/
lemma pipes (h : b.Draws address length ps) :
    (b.replay ps).pipes = setAt b.pipes address ((b.pipes address).drop length) := by
  obtain ⟨asked, hasked, rfl⟩ := h.operations
  rw [replay_append, reading]
  split
  case isTrue hzero =>
    rw [replay_nil, pipes_replay hasked, hzero, List.drop_zero]
    funext a
    by_cases ha : a = address
    · rw [ha, setAt_same]
    · rw [setAt_ne _ _ ha]
  case isFalse =>
    have hkept : (b.replay asked).pipes = b.pipes := pipes_replay hasked b
    show setAt (b.replay asked).pipes address (((b.replay asked).pipes address).drop length) = _
    rw [hkept]

/-- At least four bytes wait when a pipe is read, and no more are read than wait. -/
lemma le_of_readPipe (h : b.Draws address length ps) {a : Address} {n : Nat}
    (hread : qs ++ [.readPipe a n] <+: ps) :
    4 ≤ ((b.replay qs).pipes a).length ∧ n ≤ ((b.replay qs).pipes a).length := by
  have hwhole := h.whole
  have hwithin := h.within
  obtain ⟨asked, hasked, rfl⟩ := h.operations
  -- the operations that leave the pipes are no reads
  have hnot : ¬qs ++ [.readPipe a n] <+: asked := fun hfront =>
    hasked _ (hfront.subset (List.mem_append_right _ (List.mem_singleton_self _)))
  rw [reading] at hread
  split at hread
  case isTrue =>
    rw [List.append_nil] at hread
    exact absurd hread hnot
  case isFalse hlength =>
    obtain ⟨rfl, hlast⟩ := List.append_inj'
      ((List.prefix_concat_iff.mp hread).resolve_right hnot) rfl
    cases hlast
    rw [pipes_replay hasked]
    omega

end Draws

end Board

end PulseSequencer
