import PulseSequencer.Board
import PulseSequencer.Word.Hex

/-!
# The log of a board

An entry of the log is shown as one line of text. Addresses have two hexadecimal digits and words
eight; of the bytes on a pipe only the number is shown.

* `Primitive.text`: the line of an operation.
* `Board.logSince`: the entries that are new to a reader.
-/

namespace PulseSequencer

/-- The line of an operation in the log. -/
def Primitive.text : Primitive → String
  | setWire address value mask =>
    "set " ++ Hex.text 2 address.toNat ++ " " ++ Hex.text 8 value.toNat ++ " "
      ++ Hex.text 8 mask.toNat
  | commit => "commit"
  | latch => "latch"
  | readWire address => "out " ++ Hex.text 2 address.toNat
  | trigger address bit => "trigger " ++ Hex.text 2 address.toNat ++ " " ++ toString bit.toNat
  | writePipe address bytes =>
    "pipein " ++ Hex.text 2 address.toNat ++ " " ++ toString bytes.length
  | readPipe address length => "pipeout " ++ Hex.text 2 address.toNat ++ " " ++ toString length

/-- The entries that follow the first `seen` ones. A log that has become shorter was cleared, and
all of it is new. -/
def Board.logSince (b : Board) (seen : Nat) : List Primitive :=
  if b.log.length < seen then b.log else b.log.drop seen

end PulseSequencer
