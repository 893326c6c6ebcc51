import PulseSequencer.Configuration
import PulseSequencer.Capture
import PulseSequencer.Toml.Document
import PulseSequencer.Toml.Decode

/-!
# Reading configurations

Configurations are TOML documents. A field that is left out has the value of the standard board; a
document that is read completely is checked for consistency.

* `Configuration.ofToml`: the configuration of a pulser board.
* `Configuration.ofFile`: the same, from the contents of a file.
* `CaptureConfiguration.ofToml`: the configuration of a capture board.
-/

namespace PulseSequencer

open Toml in
/-- A range of doubles: its two ends. -/
def Span.ofToml (v : Value) : Option Span := do
  let (low, high) ← pair double v
  return ⟨low, high⟩

open Toml in
/-- A TTL channel: its name, its line and the flags of its power-on state. -/
def Channel.ofToml (v : Value) : Option Channel := do
  let f ← fields ["name", "hardware_index", "is_manual", "manual_state", "manual_invert",
    "auto_invert"] v
  let name ← f.required "name" text
  let index ← f.required "hardware_index" byte
  let manual ← f.optional "is_manual" boolean false
  let level ← f.optional "manual_state" boolean false
  let manualInverted ← f.optional "manual_invert" boolean false
  let autoInverted ← f.optional "auto_invert" boolean false
  return ⟨name, index, ⟨manual, level, manualInverted, autoInverted⟩⟩

open Toml in
/-- A DDS channel: its name, its index and its ranges. -/
def DdsChannel.ofToml (v : Value) : Option DdsChannel := do
  let f ← fields ["name", "index", "allowed_frequency", "allowed_amplitude", "board_frequency",
    "board_amplitude"] v
  let name ← f.required "name" text
  let index ← f.required "index" byte
  let allowedFrequency ← f.required "allowed_frequency" Span.ofToml
  let allowedAmplitude ← f.required "allowed_amplitude" Span.ofToml
  let boardFrequency ← f.optional "board_frequency" Span.ofToml defaultFrequency
  let boardAmplitude ← f.optional "board_amplitude" Span.ofToml defaultAmplitude
  return { name, index, allowedFrequency, allowedAmplitude, boardFrequency, boardAmplitude }

open Toml in
/-- The collection times of the two modes. -/
def CollectionTimes.ofToml (v : Value) : Option CollectionTimes := do
  let f ← fields ["normal", "differential"] v
  let normal ← f.optional "normal" double CollectionTimes.default.normal
  let differential ← f.optional "differential" double CollectionTimes.default.differential
  return ⟨normal, differential⟩

/-- A counting mode, by its name. -/
def CollectionMode.ofToml : Toml.Value → Option CollectionMode :=
  Toml.choice ([.normal, .differential].map fun mode => (mode.name, mode))

namespace Configuration

open Toml in
/-- The configuration of a document, before it is checked. -/
def ofEntries (es : Entries) : Option Configuration := do
  let f : Fields := es.find?
  let d := Configuration.default
  return {
    deviceId := ← f.optional "device_id" text d.deviceId
    pollingPeriod := ← f.optional "device_polling_period_ms" word d.pollingPeriod
    resolution := ← f.optional "time_resolution_ns" word d.resolution
    maxLength := ← f.optional "max_sequence_ns" word d.maxLength
    channelTotal := ← f.optional "channel_total" byte d.channelTotal
    channels := ← f.optional "channels" (list Channel.ofToml) d.channels
    dds := ← f.optional "dds" (list DdsChannel.ofToml) d.dds
    collectionTimes := ← f.optional "collection_time" CollectionTimes.ofToml d.collectionTimes
    collectionMode := ← f.optional "collection_mode" CollectionMode.ofToml d.collectionMode
    collectionRange := ← f.optional "collection_time_range" Span.ofToml d.collectionRange
    timetagResolution := ← f.optional "timetag_resolution" double d.timetagResolution
    waitPollInterval := ← f.optional "wait_poll_interval_ms" word d.waitPollInterval }

/-- The configuration of a TOML text, if it is consistent. -/
def ofToml (text : String) : Except Error Configuration := do
  match Toml.parse text >>= ofEntries with
  | none => throw (.configuration .malformedText)
  | some c =>
    c.validate
    return c

/-- The configuration in a file, given its contents or the reason why it could not be read. -/
def ofFile (path : String) : (contents : Except String String) → Except Error Configuration
  | .ok text => ofToml text
  | .error reason => .error (.configuration (.unreadable path reason))

end Configuration

namespace CaptureConfiguration

open Toml in
/-- The configuration of a document, before it is checked. -/
def ofEntries (es : Entries) : Option CaptureConfiguration := do
  let f : Fields := es.find?
  let d := CaptureConfiguration.default
  return {
    deviceId := ← f.optional "device_id" text d.deviceId
    pollingPeriod := ← f.optional "device_polling_period_ms" word d.pollingPeriod
    clockPeriod := ← f.optional "clock_period_ns" word d.clockPeriod
    minBuffer := ← f.optional "min_buffer" word d.minBuffer
    maxBuffer := ← f.optional "max_buffer" word d.maxBuffer
    defaultWindow := ← f.optional "default_time_length_ns" word d.defaultWindow }

/-- The configuration of a TOML text, if its limits are in order. -/
def ofToml (text : String) : Except Error CaptureConfiguration := do
  match Toml.parse text >>= ofEntries with
  | none => throw (.configuration .malformedText)
  | some c =>
    c.validate
    return c

end CaptureConfiguration

end PulseSequencer
