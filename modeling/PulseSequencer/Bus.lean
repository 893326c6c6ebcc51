import PulseSequencer.Board
import PulseSequencer.Error

/-!
# The bus

Primitive operations reach a board over a bus, and may fail there. A fault lies in wait on the bus:
a number of operations pass, the next one fails, and the fault is gone. An operation that a fault
stops does not reach the board.

* `Failure`, `Fault`: how an operation fails, and when.
* `Bus`: a board and the fault that lies in wait.
* `Bus.issue`: a primitive operation over the bus.
-/

namespace PulseSequencer

/-- How an operation on the bus fails. -/
inductive Failure where
  /-- It reports a transport failure. -/
  | reported (failure : TransportFailure)
  /-- Whoever issued it is gone. -/
  | fatal
  deriving DecidableEq, Repr

/-- The error that a failure leaves. -/
def Failure.error : Failure → Error
  | reported f => .transport f
  | fatal => .trap .killed

/-- A failure after a number of operations that pass. -/
structure Fault where
  after : Nat
  failure : Failure
  deriving DecidableEq, Repr

/-- A board and the fault that lies in wait on the way to it. -/
structure Bus where
  board : Board
  fault : Option Fault

instance : Inhabited Bus := ⟨⟨.new, none⟩⟩

namespace Bus

/-- A bus without a fault. -/
def new (board : Board) : Bus := ⟨board, none⟩

/-- The bus with a change made to its board from outside. -/
def onBoard (b : Bus) (change : Board → Board) : Bus := { b with board := change b.board }

/-- The failure of the next operation, if it fails on the bus, and the bus after that. -/
def trip (b : Bus) : Option Failure × Bus :=
  match b.fault with
  | none => (none, b)
  | some ⟨0, failure⟩ => (some failure, { b with fault := none })
  | some ⟨n + 1, failure⟩ => (none, { b with fault := some ⟨n, failure⟩ })

/-- A primitive operation over the bus: it meets the fault first, then a board that may have been
taken out, and only an operation that the board carries out is logged. -/
def issue (p : Primitive) (b : Bus) : Except Error p.Reply × Bus :=
  match b.trip with
  | (some failure, b) => (.error failure.error, b)
  | (none, b) =>
    if b.board.present then
      let (reply, board) := (b.board.record p).perform p
      (.ok reply, { b with board })
    else (.error (.transport .disconnected), b)

end Bus

end PulseSequencer
