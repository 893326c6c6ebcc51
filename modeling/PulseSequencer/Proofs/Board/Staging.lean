import PulseSequencer.Proofs.Action
import PulseSequencer.Proofs.Board.Wires

/-!
# Staged writes

A board keeps the words that were sent to its wires apart from the committed ones, and takes them
over all at once. To whoever looks at the committed words only, this is as if each wire had its
masked updates made on it in order, up to the last commit.

* `Word.update`: masked updates of a word in order.
* `Primitive.updates`: the updates that operations make on one wire.
* `Primitive.Independent`: writes to different wires or to different bits of one.
* `Board.wires_replay_commit`: what a commit lets take effect.
* `Board.wires_replay_commit_of_mem`: a commit before another one makes no difference in the end.
* `Board.drain_eq`: the staged words may be taken over in any order.
* `Board.clearLog_replay_perm`: independent writes can be made in any order.
* `Board.InOrder`, `Board.committed_in_order`: the committed words after any operations.
-/

namespace PulseSequencer

section
variable {ι α : Type} [DecidableEq ι] (f : ι → α) {i j : ι} (x y : α)

/-- A place that is set twice has the second value. -/
lemma setAt_setAt : setAt (setAt f i x) i y = setAt f i y := by
  funext k
  by_cases hk : k = i <;> simp [setAt, hk]

/-- Different places may be set in either order. -/
lemma setAt_comm (h : i ≠ j) : setAt (setAt f i x) j y = setAt (setAt f j y) i x := by
  funext k
  by_cases hk : k = i
  · subst hk
    simp [h]
  · simp only [setAt, if_neg hk]

end

/-! ## Masked updates -/

namespace Word

/-- A word after masked updates in order, each a value and the mask of the bits that it sets. -/
def update (w : Word) (updates : List (Word × Word)) : Word :=
  updates.foldl (fun w u => w.masked u.1 u.2) w

end Word

namespace Primitive

/-- The masked updates that operations make on a wire, in order. -/
def updates (address : Address) (ps : List Primitive) : List (Word × Word) :=
  ps.filterMap fun
    | .setWire changed value mask => if changed = address then some (value, mask) else none
    | _ => none

/-- What is written to a wire is what the updates of this wire make of it. -/
lemma writeAll_apply (wires : Address → Word) (ps : List Primitive) (address : Address) :
    writeAll wires ps address = (wires address).update (updates address ps) := by
  induction ps generalizing wires with
  | nil => rfl
  | cons p ps ih =>
    have hrest : writeAll wires (p :: ps) address =
        (p.write wires address).update (updates address ps) := ih (p.write wires)
    rw [hrest]
    cases p with
    | setWire changed value mask =>
      by_cases h : changed = address
      · subst h
        simp [write, updates, Word.update]
      · simp [write, updates, h, Ne.symm h]
    | _ => rfl

/-- Two writes of which neither reaches what the other one writes: they are to different wires, or
their masks have no bit in common. -/
def Independent : Primitive → Primitive → Prop
  | .setWire address _ mask, .setWire address' _ mask' => address ≠ address' ∨ mask &&& mask' = 0
  | _, _ => False

/-- Independence is symmetric. -/
lemma Independent.symm {p q : Primitive} (h : p.Independent q) : q.Independent p := by
  cases p <;> cases q <;> try exact h
  rcases h with haddress | hmask
  · exact .inl haddress.symm
  · exact .inr (by rw [BitVec.and_comm, hmask])

end Primitive

/-- If there is a commit among operations, there is a last one. -/
lemma exists_last_commit {ps : List Primitive} (h : .commit ∈ ps) :
    ∃ front back, ps = front ++ .commit :: back ∧ .commit ∉ back := by
  obtain ⟨back, front, hps, hback⟩ := List.eq_append_cons_of_mem (List.mem_reverse.mpr h)
  refine ⟨front.reverse, back.reverse, ?_, by simpa using hback⟩
  rw [← List.reverse_reverse ps, hps]
  simp

namespace Board

open Primitive

/-- The words of the wires after words were put on them one after the other. -/
def drain (wires : Address → Word) (entries : List (Address × Word)) : Address → Word :=
  entries.foldl (fun wires e => setAt wires e.1 e.2) wires

/-! ## Commits -/

/-- Only a commit changes the wires. -/
lemma wires_carry_of_ne (b : Board) {p : Primitive} (h : p ≠ .commit) :
    (b.carry p).wires = b.wires := by
  cases p with
  | commit => exact absurd rfl h
  | trigger address bit => exact (wires_fire _ bit).1
  | _ => rfl

/-- Without a commit the committed words stay. -/
lemma wires_replay_of_notMem {ps : List Primitive} (h : .commit ∉ ps) (b : Board) :
    (b.replay ps).wires = b.wires := by
  induction ps generalizing b with
  | nil => rfl
  | cons p ps ih =>
    rw [List.mem_cons, not_or] at h
    exact (ih h.2 _).trans (b.wires_carry_of_ne (Ne.symm h.1))

/-- A commit lets all writes before it take effect, and what comes after it waits for the next
one. -/
lemma wires_replay_commit (b : Board) (ps : List Primitive) {qs : List Primitive}
    (hqs : .commit ∉ qs) : (b.replay (ps ++ .commit :: qs)).wires = writeAll b.pending ps := by
  rw [replay_append, replay_cons, wires_replay_of_notMem hqs, ← pending_replay]
  rfl

/-- A commit before another one makes no difference to the committed words in the end. -/
lemma wires_replay_commit_of_mem (b : Board) (ps : List Primitive) {qs : List Primitive}
    (hqs : .commit ∈ qs) :
    (b.replay (ps ++ .commit :: qs)).wires = (b.replay (ps ++ qs)).wires := by
  obtain ⟨front, back, rfl, hback⟩ := exists_last_commit hqs
  rw [← List.cons_append, ← List.append_assoc, ← List.append_assoc, wires_replay_commit b _ hback,
    wires_replay_commit b _ hback, writeAll_append, writeAll_append, writeAll_commit]

/-- Words put on wires one after the other: a wire shows one of those put on it, if there are
any. -/
lemma drain_cases (entries : List (Address × Word)) (wires : Address → Word) (address : Address) :
    (address, drain wires entries address) ∈ entries ∨
      (∀ word, (address, word) ∉ entries) ∧ drain wires entries address = wires address := by
  induction entries generalizing wires with
  | nil => exact .inr ⟨fun _ => List.not_mem_nil, rfl⟩
  | cons e entries ih =>
    obtain ⟨changed, word⟩ := e
    rcases ih (setAt wires changed word) with hmem | ⟨hnone, heq⟩
    · exact .inl (List.mem_cons_of_mem _ hmem)
    · have heq : drain wires ((changed, word) :: entries) address =
          setAt wires changed word address := heq
      rw [heq]
      by_cases h : address = changed
      · subst h
        exact .inl (by simp)
      · refine .inr ⟨fun w hw => ?_, setAt_ne _ _ h⟩
        rcases List.mem_cons.mp hw with he | hmem
        · exact h (congrArg Prod.fst he)
        · exact hnone w hmem

/-- A commit may take over the staged words in any order. -/
lemma drain_eq (b : Board) {entries : List (Address × Word)}
    (h : ∀ address word, (address, word) ∈ entries ↔ b.staged address = some word) :
    drain b.wires entries = (b.carry .commit).wires := by
  funext address
  have hcommit : (b.carry .commit).wires address = (b.staged address).getD (b.wires address) := rfl
  rw [hcommit]
  rcases drain_cases entries b.wires address with hmem | ⟨hnone, heq⟩
  · rw [(h _ _).mp hmem, Option.getD_some]
  · have hstaged : b.staged address = none :=
      Option.eq_none_iff_forall_ne_some.mpr fun word hword => hnone word ((h _ _).mpr hword)
    rw [heq, hstaged, Option.getD_none]

/-! ## Independent writes -/

/-- The log has no influence on what an operation does. -/
lemma clearLog_carry (b : Board) (p : Primitive) :
    (b.carry p).clearLog = (b.clearLog.carry p).clearLog := by
  cases p with
  | trigger address bit =>
    obtain ⟨clear, hfire⟩ := exists_fire bit
    simp only [carry, perform, hfire]
    rfl
  | _ => rfl

/-- But for the log, operations do to a board what they do to one with an empty log. -/
lemma clearLog_replay (b : Board) (ps : List Primitive) :
    (b.replay ps).clearLog = ps.foldl (fun b p => (b.carry p).clearLog) b.clearLog := by
  induction ps generalizing b with
  | nil => rfl
  | cons p ps ih => rw [replay_cons, ih, clearLog_carry, List.foldl_cons]

/-- What is staged is what the next commit shows. -/
lemma pending_stage (b : Board) (address : Address) (value mask : Word) :
    (b.stage address value mask).pending =
      setAt b.pending address ((b.pending address).masked value mask) :=
  b.pending_carry (.setWire address value mask)

/-- A staged word is the pending one with the masked bits replaced. -/
lemma staged_stage (b : Board) (address : Address) (value mask : Word) :
    (b.stage address value mask).staged =
      setAt b.staged address (some ((b.pending address).masked value mask)) := rfl

/-- Writes to different wires, or to different bits of one, may be staged in either order. -/
lemma stage_stage_comm (b : Board) {address address' : Address} {mask mask' : Word}
    (h : address ≠ address' ∨ mask &&& mask' = 0) (value value' : Word) :
    (b.stage address value mask).stage address' value' mask' =
      (b.stage address' value' mask').stage address value mask := by
  have hstaged : ((b.stage address value mask).stage address' value' mask').staged =
      ((b.stage address' value' mask').stage address value mask).staged := by
    simp only [staged_stage, pending_stage]
    by_cases haddress : address = address'
    · subst haddress
      have hmask := h.resolve_left (not_not_intro rfl)
      simp only [setAt_same, setAt_setAt, Word.masked_masked_comm hmask]
    · rw [setAt_ne _ _ (Ne.symm haddress), setAt_ne _ _ haddress, setAt_comm _ _ _ haddress]
  exact congrArg (fun staged => { b with staged }) hstaged

/-- Independent writes can be made in either order. -/
lemma clearLog_carry_comm (b : Board) {p q : Primitive} (h : p.Independent q) :
    ((b.carry p).carry q).clearLog = ((b.carry q).carry p).clearLog := by
  cases p with
  | setWire address value mask =>
    cases q with
    | setWire address' value' mask' =>
      have hstage := congrArg clearLog (b.stage_stage_comm h value value')
      exact hstage
    | _ => exact h.elim
  | _ => exact h.elim

/-- Independent writes can be made in any order, whatever comes before and after them. -/
lemma clearLog_replay_perm (b : Board) (ps qs : List Primitive) {ws ws' : List Primitive}
    (hperm : ws.Perm ws') (hws : ws.Pairwise Independent) :
    (b.replay (ps ++ ws ++ qs)).clearLog = (b.replay (ps ++ ws' ++ qs)).clearLog := by
  simp only [clearLog_replay, List.foldl_append]
  congr 1
  refine hperm.foldl_eq' (fun p hp q hq b => ?_) _
  by_cases h : p = q
  · rw [h]
  · have : Std.Symm Independent := ⟨fun _ _ => Independent.symm⟩
    rw [← clearLog_carry, ← clearLog_carry, clearLog_carry_comm b (hws.forall hp hq h)]

/-! ## The committed words -/

/-- The committed words of a board are those of sequential masked updates. -/
structure InOrder (b : Board) : Prop where
  /-- Operations are carried out where no fault lies in wait. -/
  carried (ps : List Primitive) {σ : Type} (state : σ) :
    Action.issueAll ps ⟨state, .new b⟩ = .ok () ⟨state, .new (b.replay ps)⟩
  /-- The updates start from the committed words if nothing is left over from before, and otherwise
  from what is left over. -/
  initial : b.Settled → b.pending = b.wires
  /-- The writes before the last commit take effect in order, and the ones after it do not. -/
  committed (ps qs : List Primitive) : .commit ∉ qs → ∀ address,
    (b.replay (ps ++ .commit :: qs)).wires address =
      (b.pending address).update (updates address ps)
  uncommitted (ps : List Primitive) : .commit ∉ ps → (b.replay ps).wires = b.wires
  /-- A commit may take over the staged words in any order. -/
  drained (ps : List Primitive) {entries : List (Address × Word)} :
    (∀ address word, (address, word) ∈ entries ↔ (b.replay ps).staged address = some word) →
      drain (b.replay ps).wires entries = (b.replay (ps ++ [.commit])).wires
  /-- Independent writes can be made in any order: but for its log the board ends up the same. -/
  rearranged (ps qs : List Primitive) {ws ws' : List Primitive} :
    ws.Perm ws' → ws.Pairwise Independent →
      (b.replay (ps ++ ws ++ qs)).clearLog = (b.replay (ps ++ ws' ++ qs)).clearLog
  /-- One more commit on the way does not change the words that are committed in the end. -/
  split (ps qs : List Primitive) : .commit ∈ qs →
    (b.replay (ps ++ .commit :: qs)).wires = (b.replay (ps ++ qs)).wires

/-- Whatever operations a board in its slot is sent, its committed words are the masked updates made
in order up to the last commit. -/
theorem committed_in_order {b : Board} (hpresent : b.present = true) : b.InOrder where
  carried ps _ state := Action.issueAll_of_fault_none ps state hpresent
  initial := Settled.pending_eq
  committed ps qs hqs address := by
    rw [wires_replay_commit b ps hqs, writeAll_apply]
  uncommitted ps h := wires_replay_of_notMem h b
  drained ps {entries} h := by
    rw [replay_concat]
    exact drain_eq _ h
  rearranged ps qs {ws ws'} := clearLog_replay_perm b ps qs
  split ps qs := wires_replay_commit_of_mem b ps

/-- A board on which one half of a byte is left over from before. -/
def leftover : Board := Board.new.stage Endpoint.level 0x05 0x0f

/-- The other half is added to it, in either order with a write to another wire; what is written
after the commit has to wait. -/
theorem leftover_in_order :
    leftover.present = true ∧ leftover.InOrder ∧
      (leftover.replay [.setWire Endpoint.level 0xa0 0xf0, .setWire Endpoint.manual 0x01 0x01,
        .commit, .setWire Endpoint.level 0x00 0xff]).wires Endpoint.level = 0xa5 ∧
      (leftover.replay [.setWire Endpoint.manual 0x01 0x01, .setWire Endpoint.level 0xa0 0xf0,
        .commit]).wires =
        (leftover.replay [.setWire Endpoint.level 0xa0 0xf0, .commit,
          .setWire Endpoint.manual 0x01 0x01, .commit]).wires := by
  have horder : leftover.InOrder := committed_in_order rfl
  refine ⟨rfl, horder, ?_, ?_⟩
  · exact (horder.committed [.setWire Endpoint.level 0xa0 0xf0, .setWire Endpoint.manual 0x01 0x01]
      [.setWire Endpoint.level 0x00 0xff] (by decide) Endpoint.level).trans (by decide)
  · have hswap := horder.rearranged [] [.commit]
      (List.Perm.swap (.setWire Endpoint.level 0xa0 0xf0) (.setWire Endpoint.manual 0x01 0x01) [])
      (by simp [Independent, Endpoint.level, Endpoint.manual])
    have hsplit := horder.split [.setWire Endpoint.level 0xa0 0xf0]
      [.setWire Endpoint.manual 0x01 0x01, .commit] (by decide)
    exact (congrArg wires hswap).trans hsplit.symm

end Board

end PulseSequencer
