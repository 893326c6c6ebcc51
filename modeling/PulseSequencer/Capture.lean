import PulseSequencer.Word
import PulseSequencer.Error

/-!
# Captures and time tags

A capture board records one byte per clock period over a window. Most of these bytes are zero, so a
capture is handed out in sparse form: its length and its non-zero bytes. A pulser board keeps time
tags instead, the tick offsets of single photons.

* `TimeTag`: a time tag and its time in seconds.
* `Capture`: the sparse form, with `Capture.ofBytes` and `Capture.expand`.
* `CaptureConfiguration`: the limits of a capture board.
* `CaptureConfiguration.bufferLength`: the bytes of a capture window.
-/

namespace PulseSequencer

/-- The arrival of a photon, in ticks. -/
structure TimeTag where
  offset : Word
  deriving DecidableEq, Repr, Inhabited

namespace TimeTag

/-- The bytes of a time tag. -/
def size : Nat := 4

/-- The time of a tag, given the seconds of one tick. -/
def seconds (t : TimeTag) (resolution : Float) : Float := Float.ofNat t.offset.toNat * resolution

/-- The whole time tags of a run of bytes in pipe order. -/
def readAll : List Byte → List TimeTag := Word.readAll fun a b c d => ⟨Word.ofPipe a b c d⟩

end TimeTag

/-- A capture in sparse form: its length and the places and values of its non-zero bytes. -/
structure Capture where
  length : Nat
  hits : List (Nat × Byte)
  deriving DecidableEq, Repr, Inhabited

namespace Capture

/-- The non-zero bytes with their places, the first byte having the place `i`. -/
def hitsFrom (i : Nat) : List Byte → List (Nat × Byte)
  | [] => []
  | b :: rest => if b = 0 then hitsFrom (i + 1) rest else (i, b) :: hitsFrom (i + 1) rest

/-- The sparse form of a run of bytes. -/
def ofBytes (bytes : List Byte) : Capture := ⟨bytes.length, hitsFrom 0 bytes⟩

/-- Writes hits into a run of bytes, one after the other. -/
def overwrite : List Byte → List (Nat × Byte) → Except Error (List Byte)
  | bytes, [] => .ok bytes
  | bytes, (i, v) :: rest =>
    if i < bytes.length then overwrite (bytes.set i v) rest else .error (.trap .outOfBounds)

/-- The bytes of a capture, if every hit lies within its length. -/
def expand (c : Capture) : Except Error (List Byte) :=
  overwrite (List.replicate c.length 0) c.hits

end Capture

/-- The configuration of a capture board. -/
structure CaptureConfiguration where
  deviceId : String
  /-- Milliseconds between two attempts to reconnect. -/
  pollingPeriod : UInt64
  /-- Nanoseconds of one clock period. -/
  clockPeriod : UInt64
  /-- Bytes of the smallest capture. -/
  minBuffer : UInt64
  /-- Bytes of the largest capture. -/
  maxBuffer : UInt64
  /-- Nanoseconds of a capture for which no window is asked. -/
  defaultWindow : UInt64
  deriving DecidableEq, Repr

namespace CaptureConfiguration

/-- The configuration of the standard capture board. -/
def default : CaptureConfiguration where
  deviceId := "TimeResolvedFPGA"
  pollingPeriod := 10000
  clockPeriod := 40
  minBuffer := 1024
  maxBuffer := 16776192
  defaultWindow := 100000000

instance : Inhabited CaptureConfiguration := ⟨default⟩

/-- The bytes of one block of the capture pipe. -/
def block : Nat := 1024

/-- The bytes of a capture window: one per clock period, in whole blocks, within the limits. -/
def bufferLength (c : CaptureConfiguration) (nanos : Nat) : Except Error Nat :=
  if c.clockPeriod = 0 then .error (.trap .divisionByZero)
  else
    let bytes := nanos / c.clockPeriod.toNat / block * block
    if bytes < c.minBuffer.toNat ∨ c.maxBuffer.toNat < bytes then
      .error (.outOfRange (.captureSize nanos bytes c.minBuffer.toNat c.maxBuffer.toNat))
    else .ok bytes

/-- Accepts a configuration with a clock and with limits in order. -/
def validate (c : CaptureConfiguration) : Except Error Unit :=
  if c.clockPeriod = 0 ∨ c.maxBuffer < c.minBuffer then .error (.configuration .captureLimits)
  else .ok ()

end CaptureConfiguration

end PulseSequencer
