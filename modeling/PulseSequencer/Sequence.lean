import PulseSequencer.Timing

/-!
# Pulse sequences

A sequence is the timed program of one shot: TTL pulses on lines and states held on DDS channels, in
the order in which they were added, together with an explicit least length.

* `TtlPulse`, `DdsEvent`, `Event`: what a sequence holds.
* `Sequence`: the events and the explicit length.
* `Sequence.finish`, `Sequence.declaredLength`: where the last event ends, and the length.
* `Sequence.totalTicks`: the length in ticks, rounded up.
-/

namespace PulseSequencer

/-- A line that is high from `start` for `length` nanoseconds. -/
structure TtlPulse where
  line : UInt8
  start : Nat
  length : Nat
  deriving DecidableEq, Repr, Inhabited

/-- The time at which a pulse ends. -/
def TtlPulse.finish (p : TtlPulse) : Nat := p.start + p.length

/-- A DDS channel in one state from `start` for `length` nanoseconds. -/
structure DdsEvent where
  channel : UInt8
  start : Nat
  length : Nat
  /-- In MHz. -/
  frequency : Float
  /-- In dBm. -/
  amplitude : Float
  /-- In degrees. -/
  phase : Option Float
  profile : Option UInt8
  deriving DecidableEq, Repr, Inhabited

namespace DdsEvent

/-- The time at which an event ends. -/
def finish (e : DdsEvent) : Nat := e.start + e.length

/-- Whether two events share a channel and a time. -/
def overlaps (a b : DdsEvent) : Bool :=
  a.channel == b.channel && a.start < b.finish && b.start < a.finish

end DdsEvent

/-- An entry of a sequence. -/
inductive Event where
  | ttl (pulse : TtlPulse)
  | dds (event : DdsEvent)
  deriving DecidableEq, Repr

namespace Event

/-- The time at which an entry begins. -/
def start : Event → Nat
  | ttl p => p.start
  | dds e => e.start

/-- The time at which an entry ends. -/
def finish : Event → Nat
  | ttl p => p.finish
  | dds e => e.finish

/-- The TTL pulse of an entry, if it is one. -/
def ttl? : Event → Option TtlPulse
  | ttl p => some p
  | dds _ => none

/-- The DDS event of an entry, if it is one. -/
def dds? : Event → Option DdsEvent
  | ttl _ => none
  | dds e => some e

end Event

/-- The timed program of one shot. -/
structure Sequence where
  /-- The entries, in the order in which they were added. -/
  events : List Event
  /-- The explicit least length, in nanoseconds. -/
  extended : Nat
  deriving DecidableEq, Repr, Inhabited

namespace Sequence

/-- A sequence with no entry and no length. -/
def empty : Sequence := ⟨[], 0⟩

/-- The TTL pulses, in the order in which they were added. -/
def ttlPulses (s : Sequence) : List TtlPulse := s.events.filterMap Event.ttl?

/-- The DDS events, in the order in which they were added. -/
def ddsEvents (s : Sequence) : List DdsEvent := s.events.filterMap Event.dds?

/-- The time at which the last entry ends. -/
def finish (s : Sequence) : Nat := s.events.foldr (fun e n => max e.finish n) 0

/-- The explicit length, or the end of the last entry if that is later. -/
def declaredLength (s : Sequence) : Nat := max s.extended s.finish

/-- The sequence with more entries at its end. -/
def append (s : Sequence) (events : List Event) : Sequence :=
  { s with events := s.events ++ events }

/-- The sequence made at least `length` long. -/
def extend (s : Sequence) (length : Nat) : Sequence := { s with extended := max s.extended length }

/-- The length in ticks, rounded up. -/
def totalTicks (s : Sequence) (timing : Timing) : Except Error Nat :=
  timing.ceilTicks s.declaredLength

end Sequence

end PulseSequencer
