import PulseSequencer.Bus

/-!
# Actions on an attached board

While a transaction lasts it holds the bus and the host's state. An action is a step of a
transaction: it may change both, and what it changed stays when it fails.

* `Held`, `Action`: what a transaction holds, and its steps.
* `Action.focus`: an action on a part of the state as an action on the whole.
* `Wire`: the composite operations on wires, trigger and pipes.
* `Wire.Request`: these operations as data, and `Wire.Request.perform`.
-/

namespace PulseSequencer

/-- What a transaction holds: the host's state and the bus. -/
structure Held (σ : Type) where
  state : σ
  bus : Bus

/-- A step of a transaction with host state `σ`. -/
abbrev Action (σ α : Type) := EStateM Error (Held σ) α

namespace Action

/-- A primitive operation. -/
def issue {σ : Type} (p : Primitive) : Action σ p.Reply := fun h =>
  match h.bus.issue p with
  | (.ok reply, bus) => .ok reply { h with bus }
  | (.error e, bus) => .error e { h with bus }

/-- A result that needs neither bus nor state. -/
def ofExcept {σ α : Type} : Except Error α → Action σ α
  | .ok a => pure a
  | .error e => throw e

/-- The host's state. -/
def state {σ : Type} : Action σ σ := fun h => .ok h.state h

/-- Changes the host's state. -/
def change {σ : Type} (f : σ → σ) : Action σ Unit := fun h => .ok () { h with state := f h.state }

/-- An action on a part of the host's state. -/
def focus {σ τ α : Type} (get : τ → σ) (put : τ → σ → τ) (x : Action σ α) : Action τ α := fun h =>
  match x ⟨get h.state, h.bus⟩ with
  | .ok a k => .ok a ⟨put h.state k.state, k.bus⟩
  | .error e k => .error e ⟨put h.state k.state, k.bus⟩

end Action

namespace Wire

variable {σ : Type}

/-- Stages the bits of a wire that the mask selects. -/
def set (address : Address) (value mask : Word) : Action σ Unit :=
  Action.issue (.setWire address value mask)

/-- Commits all staged words. -/
def commit : Action σ Unit := Action.issue .commit

/-- Stages and commits the bits of a wire that the mask selects. -/
def write (address : Address) (value mask : Word) : Action σ Unit := do
  set address value mask
  commit

/-- Latches and reads a wire out of the board. -/
def read (address : Address) : Action σ Word := do
  Action.issue .latch
  Action.issue (.readWire address)

/-- Activates a bit of the trigger. -/
def trigger (bit : UInt8) : Action σ Unit := Action.issue (.trigger Endpoint.trigger bit)

/-- Selects a value for the readout wire and reads it. -/
def readout (select : Readout) : Action σ Word := do
  write Endpoint.control select.code Control.readout
  read Endpoint.readout

/-- Writes bytes to a pipe and answers their number. -/
def writePipe (address : Address) (bytes : List Byte) : Action σ Nat :=
  Action.issue (.writePipe address bytes)

/-- Reads bytes from a pipe. -/
def readPipe (address : Address) (length : Nat) : Action σ (List Byte) :=
  Action.issue (.readPipe address length)

/-- The composite operations, as data. -/
inductive Request where
  | set (address : Address) (value mask : Word)
  | commit
  | write (address : Address) (value mask : Word)
  | read (address : Address)
  | trigger (bit : UInt8)
  | readout (select : Readout)
  | writePipe (address : Address) (bytes : List Byte)
  | readPipe (address : Address) (length : Nat)
  deriving DecidableEq, Repr

/-- What a composite operation answers. -/
inductive Answer where
  | done
  | word (w : Word)
  | count (n : Nat)
  | bytes (bs : List Byte)
  deriving DecidableEq, Repr

/-- Carries out a composite operation. -/
def Request.perform : Request → Action σ Answer
  | .set address value mask => do Wire.set address value mask; return .done
  | .commit => do Wire.commit; return .done
  | .write address value mask => do Wire.write address value mask; return .done
  | .read address => .word <$> Wire.read address
  | .trigger bit => do Wire.trigger bit; return .done
  | .readout select => .word <$> Wire.readout select
  | .writePipe address bytes => .count <$> Wire.writePipe address bytes
  | .readPipe address length => .bytes <$> Wire.readPipe address length

/-- Carries out composite operations in order; the first failure ends them. -/
def performAll : List Request → Action σ (List Answer)
  | [] => pure []
  | r :: rest => do
    let a ← r.perform
    let as ← performAll rest
    return a :: as

end Wire

end PulseSequencer
