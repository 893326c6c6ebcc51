import PulseSequencer.Number.Shortest
import PulseSequencer.Sequencer.State

/-!
# Errors

Every refusal and failure is a cause with its data. The wording of each cause is in one `message`
function per type.

* `TransportFailure`: what the link to a board may report.
* `OutOfRange`, `Occupation`, `ModeConflict`, `Inconsistency`: the causes behind the error of that
  kind.
* `Trap`: a computation that stops without an answer.
* `Error`: any of these, with `Error.message`, `Error.isTrap` and `Error.isDisconnection`.
-/

namespace PulseSequencer

/-- A failure of a primitive operation on the link to a board. -/
inductive TransportFailure where
  /-- The board went away in the middle of an operation. -/
  | disconnected
  /-- No board with this identifier could be found. -/
  | deviceNotFound (id : String)
  /-- Any other failure of an operation. -/
  | failed (operation reason : String)
  deriving DecidableEq, Repr

/-- A value outside its allowed bounds. -/
inductive OutOfRange where
  | frequency (channel : String) (megahertz low high : Float)
  | amplitude (channel : String) (dbm low high : Float)
  | profile (channel : String) (number limit : Nat)
  | phase (channel : String) (degrees : Float)
  | interval (start nanos limit : Nat)
  | length (nanos limit : Nat)
  | collectionTime (seconds low high : Float)
  | repetitions (count : Nat)
  | captureSize (nanos bytes least greatest : Nat)
  deriving Repr

/-- What occupies a device. -/
inductive Occupation where
  | sequencer (state : RunState)
  | capture
  deriving DecidableEq, Repr

/-- Why an operation does not suit the current mode. -/
inductive ModeConflict where
  | nothingToStop (state : RunState)
  | notInfinite (state : RunState)
  | notLooped (state : RunState)
  | noCaptureRequested
  | captureAbandoned
  deriving DecidableEq, Repr

/-- What is wrong with a configuration. -/
inductive Inconsistency where
  | zeroResolution
  | channelTotal (total : Nat)
  | collectionRange (low high : Float)
  | duplicateName (name : String)
  | indexBeyondTotal (name : String) (index total : Nat)
  | duplicateIndex (index : Nat)
  | duplicateDds (name : String) (index : Nat)
  | ddsRanges (name : String)
  | captureLimits
  /-- The text is not TOML, or not the TOML of a configuration. -/
  | malformedText
  /-- The file could not be read, for this reason. -/
  | unreadable (path reason : String)
  /-- A reason given by the caller who initialises a board. -/
  | rejected (reason : String)
  deriving Repr

/-- A computation that stops without an answer. -/
inductive Trap where
  | overflow
  | divisionByZero
  | outOfBounds
  /-- Whoever carried out the operation is gone. -/
  | killed
  deriving DecidableEq, Repr

/-- Why an operation has no result. -/
inductive Error where
  | unknownChannel (name : String)
  | noActiveSequence
  | outOfRange (cause : OutOfRange)
  /-- A duration below the time resolution, both in nanoseconds. -/
  | resolution (duration least : Nat)
  /-- A sequence length above the maximum, both in nanoseconds. -/
  | sequenceTooLong (length limit : Nat)
  | emptySequence
  | deviceNotConnected
  | busy (cause : Occupation)
  | notProgrammed
  | invalidMode (cause : ModeConflict)
  | ddsOverlap (channel : String) (start : Nat)
  /-- The first bad entry of a batch; nothing of the batch was applied. -/
  | entry (index : Nat) (source : Error)
  | transport (failure : TransportFailure)
  | configuration (cause : Inconsistency)
  | trap (cause : Trap)
  deriving Repr

/-- Whether a computation stopped without an answer. -/
def Error.isTrap : Error → Bool
  | trap _ => true
  | _ => false

/-- Whether an error means that the board is gone. -/
def Error.isDisconnection : Error → Bool
  | transport .disconnected => true
  | _ => false

/-- The text of a transport failure. -/
def TransportFailure.message : TransportFailure → String
  | disconnected => "Device disconnected"
  | deviceNotFound id => s!"Device {id} not found"
  | failed operation reason => s!"{operation} failed: {reason}"

/-- The text of an interval of doubles. -/
def rangeText (low high : Float) : String :=
  "[" ++ Shortest.text low ++ ", " ++ Shortest.text high ++ "]"

/-- The text of a bound that was missed. -/
def OutOfRange.message : OutOfRange → String
  | frequency channel mhz low high =>
    s!"{channel}: frequency " ++ Shortest.text mhz ++ " MHz not within " ++ rangeText low high
  | amplitude channel dbm low high =>
    s!"{channel}: amplitude " ++ Shortest.text dbm ++ " dBm not within " ++ rangeText low high
  | profile channel number limit => s!"{channel}: profile {number} not within [0, {limit}]"
  | phase channel degrees => s!"{channel}: phase " ++ Shortest.text degrees
  | interval start nanos limit =>
    s!"interval {start} ns + {nanos} ns not within [0, {limit}] ns"
  | length nanos limit => s!"length {nanos} ns not within [0, {limit}] ns"
  | collectionTime secs low high =>
    "collection time " ++ Shortest.text secs ++ " s not within " ++ rangeText low high ++ " s"
  | repetitions count => s!"{count} repetitions not within [1, 65535]"
  | captureSize nanos bytes least greatest =>
    s!"capture of {nanos} ns needs {bytes} bytes; not within [{least}, {greatest}]"

/-- The text of an occupation. -/
def Occupation.message : Occupation → String
  | sequencer state => "sequencer is " ++ state.name
  | capture => "a capture is already in progress"

/-- The text of a mode conflict. -/
def ModeConflict.message : ModeConflict → String
  | nothingToStop state => "cannot stop; sequencer is " ++ state.name
  | notInfinite state => "not running an infinite sequence (" ++ state.name ++ ")"
  | notLooped state => "not running a looped sequence (" ++ state.name ++ ")"
  | noCaptureRequested => "no capture was requested"
  | captureAbandoned => "capture was abandoned"

/-- The text of an inconsistency. -/
def Inconsistency.message : Inconsistency → String
  | zeroResolution => "time resolution must be non-zero"
  | channelTotal total => s!"channel total {total} not within 1..=32"
  | collectionRange low high =>
    "invalid collection time range (" ++ Shortest.text low ++ ", " ++ Shortest.text high ++ ")"
  | duplicateName name => s!"duplicate channel name {name}"
  | indexBeyondTotal name index total =>
    s!"channel {name} index {index} exceeds channel total {total}"
  | duplicateIndex index => s!"duplicate hardware index {index}"
  | duplicateDds name index => s!"duplicate DDS channel {name} ({index})"
  | ddsRanges name => s!"DDS {name}: allowed ranges exceed the board ranges"
  | captureLimits => "invalid capture limits"
  | malformedText => "malformed configuration text"
  | unreadable path reason => s!"{path}: {reason}"
  | rejected reason => reason

/-- The text of a trap. -/
def Trap.message : Trap → String
  | overflow => "arithmetic overflow"
  | divisionByZero => "division by zero"
  | outOfBounds => "index out of bounds"
  | killed => "operation abandoned"

/-- The text of an error. -/
def Error.message : Error → String
  | unknownChannel name => s!"Unknown channel: {name}"
  | noActiveSequence => "No active sequence; create a new sequence first"
  | outOfRange cause => "Out of range: " ++ cause.message
  | resolution duration least =>
    s!"Duration of {duration} ns is below the time resolution of {least} ns"
  | sequenceTooLong length limit =>
    s!"Sequence length of {length} ns exceeds the maximum of {limit} ns"
  | emptySequence => "Sequence is empty"
  | deviceNotConnected => "Device not connected"
  | busy cause => "Device busy: " ++ cause.message
  | notProgrammed => "No programmed sequence"
  | invalidMode cause => "Invalid mode: " ++ cause.message
  | ddsOverlap channel start => s!"DDS event on {channel} at {start} ns overlaps an existing event"
  | entry index source => s!"Entry {index}: " ++ source.message
  | transport failure => "Transport error: " ++ failure.message
  | configuration cause => "Configuration error: " ++ cause.message
  | trap cause => cause.message

end PulseSequencer
