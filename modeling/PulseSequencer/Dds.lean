import PulseSequencer.Error

/-!
# Synthesizer channels

A DDS channel puts out one frequency at one amplitude. The allowed ranges bound what a sequence may
ask for; the board ranges are the full scale of the words that the hardware takes.

* `Span`: a closed range of doubles.
* `DdsChannel`: a channel with its ranges.
* `DdsChannel.validate`: the allowed ranges lie within the board ranges.
* `DdsChannel.checkFrequency`, `DdsChannel.checkAmplitude`: a value lies in its allowed range.
-/

namespace PulseSequencer

/-- A closed range of doubles. -/
structure Span where
  low : Float
  high : Float
  deriving Repr, Inhabited

namespace Span

/-- Whether a value lies in the range; a NaN never does. -/
def contains (s : Span) (x : Float) : Bool := s.low ≤ x && x ≤ s.high

/-- Whether a range holds a value at all and lies in an outer range that holds two. -/
def liesIn (inner outer : Span) : Bool :=
  inner.low ≤ inner.high && outer.low < outer.high &&
    inner.low ≥ outer.low && inner.high ≤ outer.high

/-- The place of a value in the range: 0 at its low end and 1 at its high end. -/
def ratio (s : Span) (x : Float) : Float := (x - s.low) / (s.high - s.low)

end Span

/-- A synthesizer channel; frequencies in MHz, amplitudes in dBm. -/
structure DdsChannel where
  name : String
  index : UInt8
  allowedFrequency : Span
  allowedAmplitude : Span
  boardFrequency : Span
  boardAmplitude : Span
  deriving Repr, Inhabited

namespace DdsChannel

/-- The frequency range of the standard synthesizer. -/
def defaultFrequency : Span := ⟨0.0, 800.0⟩

/-- The amplitude range of the standard synthesizer. -/
def defaultAmplitude : Span := ⟨-63.0, -3.0⟩

/-- A channel of the standard synthesizer. -/
def standard (name : String) (index : UInt8) (frequency amplitude : Span) : DdsChannel :=
  ⟨name, index, frequency, amplitude, defaultFrequency, defaultAmplitude⟩

/-- Accepts the channel if its allowed ranges lie within the board ranges. -/
def validate (d : DdsChannel) : Except Error Unit :=
  if d.allowedFrequency.liesIn d.boardFrequency && d.allowedAmplitude.liesIn d.boardAmplitude then
    .ok ()
  else .error (.configuration (.ddsRanges d.name))

/-- Accepts a frequency in its allowed range. -/
def checkFrequency (d : DdsChannel) (megahertz : Float) : Except Error Unit :=
  let allowed := d.allowedFrequency
  if allowed.contains megahertz then .ok ()
  else .error (.outOfRange (.frequency d.name megahertz allowed.low allowed.high))

/-- Accepts an amplitude in its allowed range. -/
def checkAmplitude (d : DdsChannel) (dbm : Float) : Except Error Unit :=
  let allowed := d.allowedAmplitude
  if allowed.contains dbm then .ok ()
  else .error (.outOfRange (.amplitude d.name dbm allowed.low allowed.high))

end DdsChannel

end PulseSequencer
