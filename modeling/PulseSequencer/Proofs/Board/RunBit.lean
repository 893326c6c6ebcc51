import PulseSequencer.Proofs.Board.Wires

/-!
# The run bit of the control wire

The sequencer starts when the committed run bit rises. A word that was staged and not committed lies
in wait: the next commit lets it take effect, whoever makes it.

* `Board.running`, `Board.willRun`: the run bit as it is and as the next commit will leave it.
* `Board.RisePending`: the next commit will raise the run bit.
* `Board.Raises`: operations during which the run bit rises.
* `Board.rises`: how often the run bit rises.
* `Primitive.Quiet`: operations that stage no run bit; `Board.not_raises_of_quiet`: such operations
  raise it only if that was pending.
-/

namespace PulseSequencer

namespace Control

/-- The run bit is bit 2 of the control word. -/
lemma has_run_eq (w : Word) : has w run = w.getLsbD 2 := by
  have hand : w &&& run = if w.getLsbD 2 then BitVec.twoPow 32 2 else 0#32 := BitVec.and_twoPow w 2
  rw [has, hand]
  cases w.getLsbD 2 <;> rfl

/-- A masked write decides the run bit if the mask covers it. -/
lemma has_run_masked (w value mask : Word) :
    has (w.masked value mask) run = if has mask run then has value run else has w run := by
  simp only [has_run_eq, Word.masked, BitVec.getLsbD_or, BitVec.getLsbD_and, BitVec.getLsbD_not]
  cases mask.getLsbD 2 <;> simp

end Control

/-- An operation that stages no run bit. -/
def Primitive.Quiet : Primitive → Prop
  | .setWire address value mask =>
    address = Endpoint.control → Control.has mask Control.run = true →
      Control.has value Control.run = false
  | _ => True

/-- A write to any wire but the control word is quiet. -/
lemma Primitive.quiet_of_address {address : Address} (h : address ≠ Endpoint.control)
    (value mask : Word) : (Primitive.setWire address value mask).Quiet := fun heq => absurd heq h

namespace Board

/-- The committed run bit. -/
def running (b : Board) : Bool := Control.has (b.wires Endpoint.control) Control.run

/-- The run bit that the next commit leaves. -/
def willRun (b : Board) : Bool := Control.has (b.pending Endpoint.control) Control.run

/-- The next commit raises the run bit. -/
def RisePending (b : Board) : Prop := b.willRun = true ∧ b.running = false

/-- During operations the run bit goes from 0 to 1. -/
def Raises (b : Board) (ps : List Primitive) : Prop :=
  ∃ qs p, qs ++ [p] <+: ps ∧ (b.replay qs).running = false ∧ (b.replay (qs ++ [p])).running = true

/-! ## One operation -/

/-- A commit lets the staged run bit take effect. -/
lemma running_commit (b : Board) : (b.carry .commit).running = b.willRun := rfl

/-- A write to the control word stages the run bit if its mask has it. -/
lemma willRun_setWire_control (b : Board) (value mask : Word) :
    (b.carry (.setWire Endpoint.control value mask)).willRun =
      if Control.has mask Control.run then Control.has value Control.run else b.willRun := by
  have hpending : (b.carry (.setWire Endpoint.control value mask)).pending Endpoint.control =
      (b.pending Endpoint.control).masked value mask := by
    simp [carry, perform, stage, pending, record]
  rw [willRun, hpending, Control.has_run_masked]
  rfl

/-- A write to any other wire leaves the staged run bit. -/
lemma willRun_setWire_of_ne (b : Board) {address : Address} (h : Endpoint.control ≠ address)
    (value mask : Word) : (b.carry (.setWire address value mask)).willRun = b.willRun := by
  have hpending : (b.carry (.setWire address value mask)).pending Endpoint.control =
      b.pending Endpoint.control := by
    simp [carry, perform, stage, pending, record, h]
  rw [willRun, hpending]
  rfl

/-- Only a commit changes the run bit. -/
lemma running_carry {p : Primitive} (h : p ≠ .commit) (b : Board) :
    (b.carry p).running = b.running := by
  cases p with
  | commit => exact absurd rfl h
  | trigger address bit =>
    rw [running, carry, perform, (wires_fire _ bit).1]
    rfl
  | _ => rfl

/-- Only a write to the control wire changes the run bit that is to come. -/
lemma willRun_carry {p : Primitive} (h : ∀ value mask, p ≠ .setWire Endpoint.control value mask)
    (b : Board) : (b.carry p).willRun = b.willRun := by
  cases p with
  | setWire address value mask =>
    refine b.willRun_setWire_of_ne (fun haddress => ?_) value mask
    exact h value mask (by rw [haddress])
  | trigger address bit =>
    rw [willRun, carry, perform, pending, (wires_fire _ bit).1, (wires_fire _ bit).2]
    rfl
  | _ => rfl

/-- A quiet operation does not raise the run bit that is to come. -/
lemma willRun_carry_of_quiet {p : Primitive} (hp : p.Quiet) {b : Board}
    (h : (b.carry p).willRun = true) : b.willRun = true := by
  by_cases hcontrol : ∃ value mask, p = .setWire Endpoint.control value mask
  · obtain ⟨value, mask, rfl⟩ := hcontrol
    rw [willRun_setWire_control] at h
    split at h
    case isTrue hmask =>
      rw [hp rfl hmask] at h
      cases h
    case isFalse => exact h
  · rw [willRun_carry fun value mask heq => hcontrol ⟨value, mask, heq⟩] at h
    exact h

/-- A quiet operation raises nothing and leaves nothing pending, if nothing was. -/
lemma carry_of_quiet {p : Primitive} (hp : p.Quiet) {b : Board} (hb : ¬b.RisePending) :
    ((b.carry p).running = true → b.running = true) ∧ ¬(b.carry p).RisePending := by
  have settled : b.willRun = true → b.running = true := fun hwill =>
    Bool.of_not_eq_false fun hrunning => hb ⟨hwill, hrunning⟩
  by_cases hcommit : p = .commit
  · subst hcommit
    rw [running_commit]
    exact ⟨settled, fun h => Bool.false_ne_true (h.2.symm.trans h.1)⟩
  · rw [RisePending, running_carry hcommit]
    exact ⟨id, fun h => Bool.false_ne_true
      (h.2.symm.trans (settled (willRun_carry_of_quiet hp h.1)))⟩

/-! ## Lists of operations -/

/-- Quiet operations stage no rising edge. -/
lemma not_risePending_replay {ps : List Primitive} (hps : ∀ p ∈ ps, p.Quiet) {b : Board}
    (hb : ¬b.RisePending) : ¬(b.replay ps).RisePending := by
  induction ps generalizing b with
  | nil => exact hb
  | cons p ps ih =>
    exact ih (fun q hq => hps q (List.mem_cons_of_mem p hq))
      (carry_of_quiet (hps p List.mem_cons_self) hb).2

/-- Quiet operations raise the run bit only if that was pending. -/
lemma not_raises_of_quiet {ps : List Primitive} (hps : ∀ p ∈ ps, p.Quiet) {b : Board}
    (hb : ¬b.RisePending) : ¬b.Raises ps := by
  rintro ⟨qs, p, hpre, hlow, hhigh⟩
  have hquiet : ∀ q ∈ qs ++ [p], q.Quiet := fun q hq => hps q (hpre.subset hq)
  have hqs : ¬(b.replay qs).RisePending :=
    not_risePending_replay (fun q hq => hquiet q (List.mem_append_left [p] hq)) hb
  rw [replay_append] at hhigh
  have hrunning := (carry_of_quiet (hquiet p (by simp)) hqs).1 hhigh
  exact Bool.false_ne_true (hlow.symm.trans hrunning)

/-- A commit after quiet operations that leave the control wire alone raises what was pending. -/
lemma raises_of_risePending {b : Board} (hb : b.RisePending) {ps qs : List Primitive}
    (hwill : ∀ p ∈ ps, p ≠ .commit ∧ ∀ b : Board, (b.carry p).willRun = b.willRun) :
    b.Raises (ps ++ .commit :: qs) := by
  have kept : (b.replay ps).willRun = true ∧ (b.replay ps).running = false := by
    induction ps generalizing b with
    | nil => exact hb
    | cons p ps ih =>
      obtain ⟨hcommit, hp⟩ := hwill p List.mem_cons_self
      refine ih ⟨(hp b).trans hb.1, (running_carry hcommit b).trans hb.2⟩
        fun q hq => hwill q (List.mem_cons_of_mem p hq)
  refine ⟨ps, .commit, ?_, kept.2, ?_⟩
  · exact ⟨qs, by simp⟩
  · rw [replay_append]
    exact kept.1

/-! ## Counting rises -/

/-- How often the run bit goes from 0 to 1 during operations. -/
def rises (b : Board) : List Primitive → Nat
  | [] => 0
  | p :: ps =>
    (if b.running = false ∧ (b.carry p).running = true then 1 else 0) + (b.carry p).rises ps

/-- The rising edges in two parts are those of the first and those of the second. -/
lemma rises_append (b : Board) (ps qs : List Primitive) :
    b.rises (ps ++ qs) = b.rises ps + (b.replay ps).rises qs := by
  induction ps generalizing b with
  | nil => simp [rises]
  | cons p ps ih => simp only [List.cons_append, rises, ih, replay_cons, Nat.add_assoc]

/-- A write that is committed raises the run bit once or not at all. -/
lemma rises_write (b : Board) (address : Address) (value mask : Word) :
    b.rises [.setWire address value mask, .commit] =
      if b.running = false ∧ (b.replay [.setWire address value mask, .commit]).running = true
      then 1 else 0 := by
  have hset : (b.carry (.setWire address value mask)).running = b.running :=
    running_carry Primitive.noConfusion b
  simp only [rises, hset, replay_cons, replay_nil]
  cases b.running <;> simp

end Board

end PulseSequencer
