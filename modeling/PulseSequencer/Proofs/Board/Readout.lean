import PulseSequencer.Proofs.Board.Pipes
import PulseSequencer.Proofs.Board.Staging
import PulseSequencer.Proofs.Outcome

/-!
# Readouts

The board shows three quantities on one wire, one at a time; a field of the control wire selects
which. To read one is to select it, to commit, to latch and to read the wire. Whatever was written
before, committed or not, the answer is the quantity that was asked for, and of the committed bits
only those of the field change, apart from words that had been waiting for a commit.

* `Board.quantity`: the quantities, and `Board.quantityWord`, the words that show them.
* `Board.ReadOut`: what a readout leaves of a board, and `Board.readOut_asking`, that it does.
* `Wire.readout_of_ok`: what a readout answers.
* `Wire.Answers`, `Wire.readout_answers`: every readout on every board.
-/

namespace PulseSequencer

namespace Readout

/-- The code of a quantity selects it. -/
lemma ofCode?_code (select : Readout) : ofCode? select.code = some select := by
  cases select <;> rfl

/-- The selectors are values of the readout field. -/
lemma code_and_readout (select : Readout) : select.code &&& Control.readout = select.code := by
  cases select <;> rfl

end Readout

namespace Board

/-- What a selector asks for: the done flag as 0 or 1, the repetitions completed, or the number of
16-bit words in the pipe of count records. -/
def quantity (b : Board) : Readout → Nat
  | .done => b.done.toNat
  | .repetitions => b.repetitions.toNat
  | .normalTotal => (b.pipes Endpoint.counts).length / 2

/-- The word that shows a quantity. -/
def quantityWord (b : Board) : Readout → Word
  | .done => if b.done then 1 else 0
  | .repetitions => b.repetitions
  | .normalTotal => b.fillWord Endpoint.counts

variable {b b' : Board} {select : Readout}

/-- A word has room for every quantity, as long as fewer than `2 ^ 33` bytes wait. -/
lemma toNat_quantityWord
    (h : select = .normalTotal → (b.pipes Endpoint.counts).length < 2 ^ 33) :
    (b.quantityWord select).toNat = b.quantity select := by
  cases select with
  | done => cases hdone : b.done <;> simp [quantityWord, quantity, hdone]
  | repetitions => rfl
  | normalTotal => exact toNat_fillWord (h rfl)

/-- Whatever else the control wire holds, the readout field decides what a latch shows. -/
lemma latched_of_selected
    (h : b.wires Endpoint.control &&& Control.readout = select.code) :
    (b.carry .latch).latched Endpoint.readout = b.quantityWord select := by
  rw [latched_latch, setAt_ne _ _ (by decide), setAt_same, readoutValue, h, select.ofCode?_code]
  cases select <;> rfl

/-- A board `b` and what a readout leaves of it. -/
structure ReadOut (b : Board) (select : Readout) (b' : Board) : Prop where
  /-- Only wires change, and the log grows. -/
  rest : b' = { b with
    staged := b'.staged, wires := b'.wires, latched := b'.latched, log := b'.log }
  settled : b'.Settled
  selected : b'.wires Endpoint.control &&& Control.readout = select.code
  /-- The bits outside the readout field are those that a commit alone would have left. -/
  bits : ∀ address bit,
    (address = Endpoint.control → Control.readout.getLsbD bit = false) →
      (b'.wires address).getLsbD bit = (b.pending address).getLsbD bit
  /-- A committed bit that changes is one of the readout field, or of a word that was waiting. -/
  changed : ∀ address bit, (b'.wires address).getLsbD bit ≠ (b.wires address).getLsbD bit →
    address = Endpoint.control ∧ Control.readout.getLsbD bit = true ∨
      ∃ word, b.staged address = some word ∧
        (b'.wires address).getLsbD bit = word.getLsbD bit

/-- Asking for a quantity shows what was staged, with the code of the quantity in its field. -/
lemma wires_asking (b : Board) (select : Readout) : (b.replay (Wire.asking select)).wires =
    setAt b.pending Endpoint.control
      ((b.pending Endpoint.control).masked select.code Control.readout) := by
  have hlast : .commit ∉ [Primitive.latch, .readWire Endpoint.readout] := by decide
  exact b.wires_replay_commit [.setWire Endpoint.control select.code Control.readout] hlast

/-- Outside the readout field, asking for a quantity changes no bit but those that were staged. -/
lemma bits_asking (b : Board) (select : Readout) {address : Address} {bit : Nat}
    (h : address = Endpoint.control → Control.readout.getLsbD bit = false) :
    ((b.replay (Wire.asking select)).wires address).getLsbD bit =
      (b.pending address).getLsbD bit := by
  rw [wires_asking]
  by_cases haddress : address = Endpoint.control
  · rw [haddress, setAt_same, Word.getLsbD_masked, h haddress]
    rfl
  · rw [setAt_ne _ _ haddress]

/-- A board that was asked for a quantity reads it out. -/
lemma readOut_asking (b : Board) (select : Readout) :
    b.ReadOut select (b.replay (Wire.asking select)) where
  rest := rfl
  settled := fun _ => rfl
  selected := by
    rw [wires_asking, setAt_same, Word.masked_and_self, select.code_and_readout]
  bits address bit h := b.bits_asking select h
  changed address bit hchanged := by
    by_cases hfield : address = Endpoint.control ∧ Control.readout.getLsbD bit = true
    · exact .inl hfield
    · have hkept := b.bits_asking select fun haddress =>
        Bool.eq_false_of_not_eq_true fun hbit => hfield ⟨haddress, hbit⟩
      rw [hkept, pending] at hchanged ⊢
      -- where nothing waits, a commit changes nothing
      cases hstaged : b.staged address with
      | none =>
        rw [hstaged] at hchanged
        exact absurd rfl hchanged
      | some word => exact .inr ⟨word, rfl, rfl⟩

/-- A board that reads a quantity out shows it. -/
lemma ReadOut.quantity_eq (h : b.ReadOut select b') : b'.quantity = b.quantity := by
  rw [h.rest]
  rfl

end Board

namespace Wire

variable {σ : Type} {select : Readout}

/-- A readout answers the quantity of its selector and leaves the host's state alone. -/
lemma readout_of_ok {h h' : Held σ} {word : Word} (hok : readout select h = .ok word h') :
    h'.state = h.state ∧ word = h.bus.board.quantityWord select ∧
      h'.bus.board = h.bus.board.replay (asking select) := by
  obtain ⟨_, h₁, hwrite, hread⟩ := ok_of_bind hok
  obtain ⟨_, h₂, hset, hcommit⟩ := ok_of_bind hwrite
  obtain ⟨_, h₃, hlatch, hreply⟩ := ok_of_bind hread
  obtain ⟨hstate₂, hboard₂⟩ := Action.issue_of_ok hset
  obtain ⟨hstate₁, hboard₁⟩ := Action.issue_of_ok hcommit
  obtain ⟨hstate₃, hboard₃⟩ := Action.issue_of_ok hlatch
  obtain ⟨hstate, hboard, hword⟩ := Action.carried_of_ok hreply
  have hselected : h₁.bus.board.wires Endpoint.control &&& Control.readout = select.code := by
    rw [hboard₁, hboard₂]
    exact (Word.masked_and_self _ _ _).trans select.code_and_readout
  refine ⟨by rw [hstate, hstate₃, hstate₁, hstate₂], ?_, ?_⟩
  · have hshown : word = (h₁.bus.board.carry .latch).latched Endpoint.readout := by
      rw [hword, hboard₃]
      rfl
    rw [hshown, Board.latched_of_selected hselected, hboard₁, hboard₂]
    cases select <;> rfl
  · rw [hboard, hboard₃, hboard₁, hboard₂]
    rfl

/-- After a readout that succeeded the board reads out the quantity. -/
lemma board_of_readout {h h' : Held σ} {word : Word} (hok : readout select h = .ok word h') :
    h.bus.board.ReadOut select h'.bus.board := by
  rw [(readout_of_ok hok).2.2]
  exact h.bus.board.readOut_asking select

/-- What a readout does in a transaction. -/
structure Answers (select : Readout) (h : Held σ) : Prop where
  returns : h.bus.board.present = true → h.bus.fault = none → ∃ word h',
    readout select h = .ok word h'
  state : ∀ {word h'}, readout select h = .ok word h' → h'.state = h.state
  word : ∀ {word h'}, readout select h = .ok word h' →
    (select = .normalTotal → (h.bus.board.pipes Endpoint.counts).length < 2 ^ 33) →
      word.toNat = h.bus.board.quantity select
  board : ∀ {word h'}, readout select h = .ok word h' →
    h.bus.board.ReadOut select h'.bus.board
  /-- All quantities are there for the next readout, whichever it asks for. -/
  quantity : ∀ {word h'}, readout select h = .ok word h' →
    h'.bus.board.quantity = h.bus.board.quantity

/-- On every board a readout answers the quantity that was asked for, and changes no more than it
has to. -/
lemma readout_answers (select : Readout) (h : Held σ) : Answers select h where
  returns hpresent hfault := by
    have brings : Brings (readout select) h.state (fun _ _ _ => True) fun _ _ => True :=
      .readout (fun _ => trivial) fun _ => trivial
    obtain ⟨word, h', -, hok, -⟩ := brings.ok_of_fault_none hfault hpresent
    exact ⟨word, h', hok⟩
  state hok := (readout_of_ok hok).1
  word hok hfill := by
    rw [(readout_of_ok hok).2.1, Board.toNat_quantityWord hfill]
  board hok := board_of_readout hok
  quantity hok := (board_of_readout hok).quantity_eq

end Wire

end PulseSequencer
