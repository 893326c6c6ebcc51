import PulseSequencer.Channel
import PulseSequencer.Dds
import PulseSequencer.Timing
import PulseSequencer.Counting.Mode

/-!
# Configuration of a pulser board

A configuration names the board, its timing constants, the TTL lines and DDS channels wired to it
and the defaults of photon counting.

* `Configuration`: the configuration, with `Configuration.default` for the standard board.
* `Configuration.validate`: accepts a consistent configuration, or names its first fault.
-/

namespace PulseSequencer

/-- The configuration of a pulser board. -/
structure Configuration where
  /-- The identifier that the board reports. -/
  deviceId : String
  /-- Milliseconds between two attempts to reconnect. -/
  pollingPeriod : UInt64
  /-- Nanoseconds of one tick. -/
  resolution : UInt64
  /-- Nanoseconds of the longest sequence. -/
  maxLength : UInt64
  /-- The number of TTL lines. -/
  channelTotal : UInt8
  channels : List Channel
  dds : List DdsChannel
  collectionTimes : CollectionTimes
  collectionMode : CollectionMode
  /-- The allowed collection times, in seconds. -/
  collectionRange : Span
  /-- Seconds of one tick of a time tag. -/
  timetagResolution : Float
  /-- Milliseconds between two looks at the done flag. -/
  waitPollInterval : UInt64
  deriving Repr

namespace Configuration

/-- The TTL lines of the standard board. -/
def defaultChannels : List Channel :=
  [.held "866DP" 0 true, .auto "crystallization" 1, .auto "bluePI" 2, .auto "397Extra" 3,
    .auto "camera" 4, .auto "TimeResolvedCount" 5, .auto "AdvanceDDS" 6, .auto "ResetDDS" 7,
    .auto "axial" 8, .held "radial" 9 false, .auto "DiffCountTrigger" 10, .auto "ReadoutCount" 11]

/-- The DDS channels of the standard board. -/
def defaultDds : List DdsChannel :=
  [.standard "110DP" 0 ⟨90.0, 130.0⟩ ⟨-63.0, -3.0⟩,
    .standard "729DP" 1 ⟨150.0, 250.0⟩ ⟨-63.0, -3.0⟩,
    .standard "854DP" 2 ⟨70.0, 90.0⟩ ⟨-63.0, -3.0⟩]

/-- The configuration of the standard board. -/
def default : Configuration where
  deviceId := "Pulser"
  pollingPeriod := 10000
  resolution := 40
  maxLength := 85000000000
  channelTotal := 32
  channels := defaultChannels
  dds := defaultDds
  collectionTimes := .default
  collectionMode := .normal
  collectionRange := ⟨0.010, 5.0⟩
  timetagResolution := 10.0e-9
  waitPollInterval := 50

instance : Inhabited Configuration := ⟨default⟩

/-- The timing constraints of the board. -/
def timing (c : Configuration) : Timing := ⟨c.resolution.toNat, c.maxLength.toNat⟩

/-- Accepts the channels whose names and lines are new and below the number of lines, going through
them in order. -/
def checkChannels (total : UInt8) : (names : List String) → (indices : List UInt8) →
    List Channel → Except Error Unit
  | _, _, [] => .ok ()
  | names, indices, c :: rest =>
    if c.name ∈ names then .error (.configuration (.duplicateName c.name))
    else if total ≤ c.index then
      .error (.configuration (.indexBeyondTotal c.name c.index.toNat total.toNat))
    else if c.index ∈ indices then .error (.configuration (.duplicateIndex c.index.toNat))
    else checkChannels total (c.name :: names) (c.index :: indices) rest

/-- Accepts the DDS channels whose names and indices are new and whose ranges are sound, going
through them in order. -/
def checkDds : (names : List String) → (indices : List UInt8) → List DdsChannel →
    Except Error Unit
  | _, _, [] => .ok ()
  | names, indices, d :: rest =>
    if d.name ∈ names ∨ d.index ∈ indices then
      .error (.configuration (.duplicateDds d.name d.index.toNat))
    else do
      d.validate
      checkDds (d.name :: names) (d.index :: indices) rest

/-- Accepts a range of collection times that are positive and in order. -/
def checkCollectionRange (s : Span) : Except Error Unit :=
  if s.low > 0.0 && s.low ≤ s.high then .ok ()
  else .error (.configuration (.collectionRange s.low s.high))

/-- Accepts a configuration that is consistent in itself. -/
def validate (c : Configuration) : Except Error Unit := do
  if c.resolution = 0 then throw (.configuration .zeroResolution)
  if c.channelTotal = 0 ∨ 32 < c.channelTotal then
    throw (.configuration (.channelTotal c.channelTotal.toNat))
  checkCollectionRange c.collectionRange
  checkChannels c.channelTotal [] [] c.channels
  checkDds [] [] c.dds

end Configuration

end PulseSequencer
