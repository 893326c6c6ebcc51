import PulseSequencer.Word

/-!
# Hexadecimal text

Addresses, words and runs of bytes are shown in hexadecimal, in small letters and with leading
zeros.

* `Hex.text`: a number in a field of so many digits.
* `Hex.ofBytes`: a run of bytes, two digits each.
-/

namespace PulseSequencer

namespace Hex

/-- A number in hexadecimal, filled with zeros up to `width` digits. -/
def text (width n : Nat) : String :=
  let digits := Nat.toDigits 16 n
  String.ofList (List.replicate (width - digits.length) '0' ++ digits)

/-- A run of bytes, two digits each. -/
def ofBytes (bytes : List Byte) : String := String.join (bytes.map fun b => text 2 b.toNat)

end Hex

end PulseSequencer
