import PulseSequencer.Word

/-!
# Endpoints and the control wire

The board is reached through numbered endpoints: wires into the board, wires out of it, one trigger
and pipes. The control wire holds the run bits of the sequencer, the counting mode and a selector
for the value that the readout wire shows.

* `Address`, `Endpoint`: the endpoints in use.
* `Pulse`: the bits of the trigger.
* `Control`: the fields of the control wire.
* `Readout`: what the readout wire can show.
-/

namespace PulseSequencer

/-- The number of an endpoint. -/
abbrev Address := UInt8

namespace Endpoint

/-- The control wire. -/
def control : Address := 0x00
/-- The collection time of normal counting, in milliseconds. -/
def countRate : Address := 0x01
/-- One bit per line, set while the line is held at a fixed level. -/
def manual : Address := 0x02
/-- One bit per line: the fixed level, or the inversion of the sequencer's level. -/
def level : Address := 0x03
/-- The number of repetitions of a looped run, 0 for no end. -/
def repetitions : Address := 0x05
/-- The value that the control wire selects. -/
def readout : Address := 0x21
/-- The number of 16-bit words in the time-tag pipe. -/
def timetagTotal : Address := 0x22
/-- The trigger. -/
def trigger : Address := 0x40
/-- The pipe into program memory. -/
def program : Address := 0x80
/-- The pipe of time tags, or of captures on a capture board. -/
def timetags : Address := 0xa0
/-- The pipe of count records. -/
def counts : Address := 0xa1

end Endpoint

namespace Pulse

/-- Resets the sequence counter. -/
def resetCounter : UInt8 := 0
/-- Clears program memory. -/
def resetMemory : UInt8 := 1
/-- Clears the pipe of count records. -/
def resetCounts : UInt8 := 2
/-- Clears the pipe of time tags. -/
def resetTimetags : UInt8 := 3
/-- Resets the synthesizers. -/
def resetDds : UInt8 := 4
/-- Clears the capture pipe of a capture board. -/
def resetCapture : UInt8 := 0

end Pulse

namespace Control

/-- The pulse sequence closes the counting windows. -/
def differential : Word := 0x01
/-- The run is repeated. -/
def loop : Word := 0x02
/-- The sequencer runs. -/
def run : Word := 0x04
/-- The field that selects the readout. -/
def readout : Word := 0xf0
/-- The field of the counting mode. -/
def counting : Word := differential
/-- The field of the sequencer. -/
def sequencer : Word := loop ||| run
/-- Every bit that has a meaning. -/
def known : Word := differential ||| loop ||| run ||| readout
/-- The sequencer field that starts a single run. -/
def startSingle : Word := run
/-- The sequencer field that ends a single run. -/
def stopSingle : Word := 0x00
/-- The sequencer field that starts a repeated run. -/
def startLooped : Word := loop ||| run
/-- The sequencer field that ends a repeated run. -/
def stopLooped : Word := loop

/-- Whether a word has all bits of a field set. -/
def has (w field : Word) : Bool := w &&& field == field

end Control

/-- What the readout wire can show. -/
inductive Readout where
  /-- Non-zero once the sequencer has finished. -/
  | done
  /-- The repetitions completed in a looped run. -/
  | repetitions
  /-- The number of 16-bit words in the pipe of count records. -/
  | normalTotal
  deriving DecidableEq, Repr, Inhabited

namespace Readout

/-- The name of a value. -/
def name : Readout → String
  | done => "Done"
  | repetitions => "Repetitions"
  | normalTotal => "NormalTotal"

/-- The readout field that selects a value. -/
def code : Readout → Word
  | done => 0x00
  | repetitions => 0x20
  | normalTotal => 0x40

/-- The value that a readout field selects. -/
def ofCode? (w : Word) : Option Readout :=
  if w = 0x00 then some done
  else if w = 0x20 then some repetitions
  else if w = 0x40 then some normalTotal
  else none

end Readout

end PulseSequencer
