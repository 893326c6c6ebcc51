import PulseSequencer.Sequence

/-!
# DDS transitions

A DDS event switches its channel on at its first tick and off at its end, unless the next event of
the channel begins in that very tick.

* `Transition`: a change of state of a DDS channel.
* `Transition.walk`: the changes of events that are sorted by channel and start.
* `Sequence.transitions`: all changes of a sequence, in the order of ticks and then of channels.
-/

namespace PulseSequencer

/-- A change of state of a DDS channel, in physical units. -/
structure Transition where
  channel : UInt8
  tick : Nat
  frequency : Float
  amplitude : Float
  phase : Float
  profile : UInt8
  /-- False for the return to the off state at the end of an event. -/
  on : Bool
  deriving DecidableEq, Repr, Inhabited

namespace Transition

/-- The change at the first tick of an event. -/
def rise (timing : Timing) (e : DdsEvent) : Transition where
  channel := e.channel
  tick := timing.ticks e.start
  frequency := e.frequency
  amplitude := e.amplitude
  phase := e.phase.getD 0.0
  profile := e.profile.getD 0
  on := true

/-- The change at the end of an event. -/
def fall (timing : Timing) (e : DdsEvent) : Transition :=
  { rise timing e with tick := timing.ticks e.finish, on := false }

/-- Whether the next event takes over the channel in the tick in which `e` ends. -/
def handsOver (timing : Timing) (e : DdsEvent) : Option DdsEvent → Bool
  | none => false
  | some next => next.channel == e.channel && timing.ticks next.start == timing.ticks e.finish

/-- The changes of events that are sorted by channel and start. -/
def walk (timing : Timing) : List DdsEvent → List Transition
  | [] => []
  | e :: rest =>
    if handsOver timing e rest.head? then rise timing e :: walk timing rest
    else rise timing e :: fall timing e :: walk timing rest

/-- The order of events by channel and then by start. -/
def eventLe (a b : DdsEvent) : Bool :=
  a.channel < b.channel || (a.channel == b.channel && a.start ≤ b.start)

/-- The order of changes by tick and then by channel. -/
def le (a b : Transition) : Bool :=
  a.tick < b.tick || (a.tick == b.tick && a.channel ≤ b.channel)

end Transition

/-- The DDS changes of a sequence in the order of time. -/
def Sequence.transitions (s : Sequence) (timing : Timing) : List Transition :=
  (Transition.walk timing (s.ddsEvents.mergeSort Transition.eventLe)).mergeSort Transition.le

end PulseSequencer
