import PulseSequencer.Proofs.Board.Replay
import PulseSequencer.Proofs.Word

/-!
# The words on the wires

Writes to a wire are masked and wait for a commit, but they take their order from the operations
alone: the word that a wire has or will have after a commit is the old one with each write made on
it in turn. A board on which nothing waits shows these words.

* `Primitive.write`, `Primitive.writeAll`: what operations write, whether or not it was committed.
* `Primitive.WriteOnly`, `Primitive.Apart`: operations that write only to some fields, which leaves
  the fields apart from them as they are.
* `Board.pending_replay`: what was written is what a wire has or will have.
* `Board.Settled`: nothing waits for a commit, and `Board.Settled.wires_replay`, what the wires show
  then.
-/

namespace PulseSequencer

namespace Primitive

/-- The words of the wires after what an operation writes. -/
def write (wires : Address → Word) : Primitive → Address → Word
  | .setWire address value mask => setAt wires address ((wires address).masked value mask)
  | _ => wires

/-- The words of the wires after what operations write in order. -/
def writeAll (wires : Address → Word) (ps : List Primitive) : Address → Word := ps.foldl write wires

section
variable {wires : Address → Word} {ps : List Primitive} {address : Address}

/-- No operations write nothing. -/
@[simp] lemma writeAll_nil : writeAll wires [] = wires := rfl

/-- Operations in two parts write one part after the other. -/
@[simp] lemma writeAll_append (qs : List Primitive) :
    writeAll wires (ps ++ qs) = writeAll (writeAll wires ps) qs := List.foldl_append

/-- A write puts its masked bits on the wire. -/
@[simp] lemma writeAll_setWire (value mask : Word) :
    writeAll wires (.setWire address value mask :: ps) =
      writeAll (setAt wires address ((wires address).masked value mask)) ps := rfl

/-- A commit writes nothing. -/
@[simp] lemma writeAll_commit : writeAll wires (.commit :: ps) = writeAll wires ps := rfl

/-- A trigger writes nothing. -/
@[simp] lemma writeAll_trigger (bit : UInt8) :
    writeAll wires (.trigger address bit :: ps) = writeAll wires ps := rfl

end

/-- Operations that write only to some fields, each a wire and the mask of its bits. -/
def WriteOnly (fields : List (Address × Word)) (ps : List Primitive) : Prop :=
  ∀ p ∈ ps, match p with
    | .setWire address _ mask => (address, mask) ∈ fields
    | _ => True

/-- No bit is in both of two lists of fields. -/
def Apart (fields kept : List (Address × Word)) : Prop :=
  ∀ f ∈ fields, ∀ g ∈ kept, f.1 = g.1 → f.2 &&& g.2 = 0

-- The lists are gone through: there are too many words to go through all of them.
instance (fields kept : List (Address × Word)) : Decidable (Apart fields kept) :=
  @List.decidableBAll _ _ (fun _ => List.decidableBAll _ kept) fields

namespace WriteOnly

variable {fields fields' kept : List (Address × Word)} {ps qs : List Primitive}

/-- Two runs that write only some fields do so in a row. -/
lemma append (hps : WriteOnly fields ps) (hqs : WriteOnly fields qs) :
    WriteOnly fields (ps ++ qs) := List.forall_mem_append.mpr ⟨hps, hqs⟩

/-- What writes only some fields writes only those of a greater list. -/
lemma mono (hfields : fields ⊆ fields') (h : WriteOnly fields ps) : WriteOnly fields' ps := by
  intro p hp
  have hwrite := h p hp
  cases p with
  | setWire address value mask => exact hfields hwrite
  | _ => trivial

/-- A field apart from those that are written stays as it is. -/
lemma field_eq (h : WriteOnly fields ps) (hapart : Apart fields kept) {address : Address}
    {field : Word} (hfield : (address, field) ∈ kept) (wires : Address → Word) :
    writeAll wires ps address &&& field = wires address &&& field := by
  induction ps generalizing wires with
  | nil => rfl
  | cons p ps ih =>
    have hrest : WriteOnly fields ps := fun q hq => h q (List.mem_cons_of_mem p hq)
    have hfirst : p.write wires address &&& field = wires address &&& field := by
      cases p with
      | setWire changed value mask =>
        have hmask := hapart _ (h _ List.mem_cons_self) _ hfield
        by_cases hchanged : changed = address
        · subst hchanged
          rw [write, setAt_same]
          exact Word.masked_and_of_disjoint (hmask rfl) _ _
        · rw [write, setAt_ne _ _ (Ne.symm hchanged)]
      | _ => rfl
    exact (ih hrest _).trans hfirst

/-- A whole word that is kept apart from the written fields stays as it is. -/
lemma word_eq (h : WriteOnly fields ps) (hapart : Apart fields kept) {address : Address}
    (hword : (address, Word.all) ∈ kept) (wires : Address → Word) :
    writeAll wires ps address = wires address := by
  have hall := h.field_eq hapart hword wires
  rw [Word.all, BitVec.and_allOnes, BitVec.and_allOnes] at hall
  exact hall

end WriteOnly

/-- Whether nothing waits for a commit after an operation, `settled` telling whether that was so
before. -/
def settles (settled : Bool) : Primitive → Bool
  | .setWire _ _ _ => false
  | .commit => true
  | _ => settled

end Primitive

namespace Board

/-- Nothing waits for a commit. -/
def Settled (b : Board) : Prop := ∀ address, b.staged address = none

/-- A trigger leaves the wires and what is staged. -/
lemma wires_fire (b : Board) (bit : UInt8) :
    (b.fire bit).wires = b.wires ∧ (b.fire bit).staged = b.staged := by
  obtain ⟨clear, hfire⟩ := exists_fire bit
  rw [hfire]
  exact ⟨rfl, rfl⟩

/-- Every operation changes the pending words as it writes. -/
lemma pending_carry (b : Board) (p : Primitive) : (b.carry p).pending = p.write b.pending := by
  funext address
  cases p with
  | setWire changed value mask =>
    by_cases h : address = changed
    · subst h
      simp [carry, perform, stage, pending, record, Primitive.write]
    · simp [carry, perform, stage, pending, record, Primitive.write, h]
  | trigger changed bit =>
    rw [carry, perform, pending, (wires_fire _ bit).1, (wires_fire _ bit).2]
    rfl
  | _ => rfl

/-- The words that the wires have or will have are those that were written in order. -/
lemma pending_replay (b : Board) (ps : List Primitive) :
    (b.replay ps).pending = Primitive.writeAll b.pending ps := by
  induction ps generalizing b with
  | nil => rfl
  | cons p ps ih =>
    rw [replay_cons, ih, pending_carry]
    rfl

/-- If nothing is staged, the pending words are those on the wires. -/
lemma Settled.pending_eq {b : Board} (h : b.Settled) : b.pending = b.wires := by
  funext address
  rw [pending, h address]
  rfl

/-- Only writes leave something that waits for a commit. -/
lemma settled_carry {b : Board} {settled : Bool} (hb : settled = true → b.Settled) {p : Primitive}
    (h : p.settles settled = true) : (b.carry p).Settled := by
  intro address
  cases p with
  | setWire changed value mask => cases h
  | commit => rfl
  | trigger changed bit =>
    rw [carry, perform, (wires_fire _ bit).2]
    exact hb h address
  | _ => exact hb h address

/-- Operations leave nothing that waits if no write among them comes after the last commit, and
either there is a commit or nothing waited before. -/
lemma settled_replay {b : Board} (settled : Bool) (hb : settled = true → b.Settled)
    {ps : List Primitive} (h : ps.foldl Primitive.settles settled = true) :
    (b.replay ps).Settled := by
  induction ps generalizing b settled with
  | nil => exact hb h
  | cons p ps ih => exact ih _ (settled_carry hb) h

/-- A run that commits its last write leaves nothing staged. -/
lemma Settled.replay {b : Board} (hb : b.Settled) {ps : List Primitive}
    (h : ps.foldl Primitive.settles true = true) : (b.replay ps).Settled :=
  settled_replay true (fun _ => hb) h

/-- If nothing is left staged, the wires show everything that was pending and written. -/
lemma wires_replay {b : Board} {ps : List Primitive} (h : (b.replay ps).Settled) :
    (b.replay ps).wires = Primitive.writeAll b.pending ps := by
  rw [← h.pending_eq, pending_replay]

/-- If nothing was staged before or is left staged, the wires show everything that was written. -/
lemma Settled.wires_replay {b : Board} (hb : b.Settled) {ps : List Primitive}
    (h : (b.replay ps).Settled) : (b.replay ps).wires = Primitive.writeAll b.wires ps := by
  rw [Board.wires_replay h, hb.pending_eq]

end Board

end PulseSequencer
