import PulseSequencer.Program.Compile
import PulseSequencer.Sequence.Grid

/-!
# Sequence builder

A builder holds at most one sequence and lets only sound entries into it. Every refused request
leaves the sequence as it was, and a batch is taken as a whole or not at all.

* `TtlRequest`, `DdsRequest`: pulses addressed by channel names.
* `Builder`: a registry, the timing constraints and the current sequence.
* `Builder.addTtl`, `Builder.addTtls`, `Builder.addDds`, `Builder.addDdss`, `Builder.extend`: the
  requests.
* `Builder.compile`, `Builder.grid`, `Builder.transitions`: what is made of the sequence.
-/

namespace PulseSequencer

/-- The highest profile of a DDS channel. -/
def maxProfile : UInt8 := 7

/-- A pulse on a named TTL line. -/
structure TtlRequest where
  channel : String
  start : Nat
  length : Nat
  deriving DecidableEq, Repr, Inhabited

/-- A state to hold on a named DDS channel. -/
structure DdsRequest where
  channel : String
  start : Nat
  length : Nat
  frequency : Float
  amplitude : Float
  phase : Option Float
  profile : Option UInt8
  deriving Repr, Inhabited

/-- A DDS change with the name of its channel and its time in nanoseconds. -/
structure NamedTransition where
  channel : String
  time : Nat
  transition : Transition
  deriving Repr

/-- A registry, the timing constraints and the current sequence. -/
structure Builder where
  registry : Registry
  timing : Timing
  sequence : Option Sequence
  deriving Repr, Inhabited

namespace Builder

/-- A builder without a sequence. -/
def new (registry : Registry) (timing : Timing) : Builder := ⟨registry, timing, none⟩

/-- Starts an empty sequence in place of the current one. -/
def newSequence (b : Builder) : Builder := { b with sequence := some .empty }

/-- The current sequence. -/
def current (b : Builder) : Except Error Sequence :=
  match b.sequence with
  | some s => .ok s
  | none => .error .noActiveSequence

/-- Accepts an interval that ends within the longest sequence and lasts at least one tick. -/
def checkWindow (b : Builder) (start length : Nat) : Except Error Unit :=
  if start ≤ b.timing.maxLength ∧ start + length ≤ b.timing.maxLength then
    if length < b.timing.resolution then .error (.resolution length b.timing.resolution) else .ok ()
  else .error (.outOfRange (.interval start length b.timing.maxLength))

/-- The pulse of a request, if it is sound. -/
def ttlPulse (b : Builder) (r : TtlRequest) : Except Error TtlPulse := do
  let line ← b.registry.hardwareIndex r.channel
  b.checkWindow r.start r.length
  return ⟨line, r.start, r.length⟩

/-- Accepts a profile that a DDS channel has. -/
def checkProfile (name : String) : Option UInt8 → Except Error Unit
  | none => .ok ()
  | some p =>
    if maxProfile < p then .error (.outOfRange (.profile name p.toNat maxProfile.toNat)) else .ok ()

/-- Accepts a phase that is a number. -/
def checkPhase (name : String) : Option Float → Except Error Unit
  | none => .ok ()
  | some x => if x.isFinite then .ok () else .error (.outOfRange (.phase name x))

/-- The event of a request, if it is sound and overlaps neither an event of the sequence nor one of
the `pending` events of the same batch. -/
def ddsEvent (b : Builder) (pending : List DdsEvent) (r : DdsRequest) : Except Error DdsEvent := do
  let dds ← b.registry.ddsNamed r.channel
  b.checkWindow r.start r.length
  dds.checkFrequency r.frequency
  dds.checkAmplitude r.amplitude
  checkProfile dds.name r.profile
  checkPhase dds.name r.phase
  let event : DdsEvent :=
    ⟨dds.index, r.start, r.length, r.frequency, r.amplitude, r.phase, r.profile⟩
  let s ← b.current
  if (s.ddsEvents ++ pending).any (·.overlaps event) then throw (.ddsOverlap dds.name r.start)
  return event

/-- The sequence with more entries at its end. -/
def push (b : Builder) (events : List Event) : Builder :=
  { b with sequence := b.sequence.map (·.append events) }

/-- Marks the error of an entry of a batch with its place. -/
def atEntry {α : Type} (index : Nat) : Except Error α → Except Error α
  | .ok a => .ok a
  | .error e => .error (.entry index e)

/-- The pulses of a batch whose first request has the place `index`. -/
def ttlPulses (b : Builder) : (index : Nat) → List TtlRequest → Except Error (List TtlPulse)
  | _, [] => .ok []
  | index, r :: rest => do
    let p ← atEntry index (b.ttlPulse r)
    let ps ← b.ttlPulses (index + 1) rest
    return p :: ps

/-- The events of a batch whose first request has the place `index`, after the `pending` ones. -/
def ddsEvents (b : Builder) : (index : Nat) → (pending : List DdsEvent) → List DdsRequest →
    Except Error (List DdsEvent)
  | _, pending, [] => .ok pending
  | index, pending, r :: rest => do
    let e ← atEntry index (b.ddsEvent pending r)
    b.ddsEvents (index + 1) (pending ++ [e]) rest

/-- Adds a pulse. -/
def addTtl (b : Builder) (r : TtlRequest) : Except Error Builder := do
  let _ ← b.current
  let p ← b.ttlPulse r
  return b.push [.ttl p]

/-- Adds all pulses of a batch, or none. -/
def addTtls (b : Builder) (rs : List TtlRequest) : Except Error Builder := do
  let _ ← b.current
  let ps ← b.ttlPulses 0 rs
  return b.push (ps.map .ttl)

/-- Adds a DDS event. -/
def addDds (b : Builder) (r : DdsRequest) : Except Error Builder := do
  let _ ← b.current
  let e ← b.ddsEvent [] r
  return b.push [.dds e]

/-- Adds all DDS events of a batch, or none. -/
def addDdss (b : Builder) (rs : List DdsRequest) : Except Error Builder := do
  let _ ← b.current
  let es ← b.ddsEvents 0 [] rs
  return b.push (es.map .dds)

/-- Makes the sequence at least `length` nanoseconds long. -/
def extend (b : Builder) (length : Nat) : Except Error Builder := do
  let _ ← b.current
  if b.timing.maxLength < length then throw (.outOfRange (.length length b.timing.maxLength))
  return { b with sequence := b.sequence.map (·.extend length) }

/-- The program of the current sequence; without one there is nothing to compile. -/
def compile (b : Builder) : Except Error Program :=
  match b.sequence with
  | some s => PulseSequencer.compile s b.registry b.timing
  | none => .error .emptySequence

/-- The grid view of the current sequence. -/
def grid (b : Builder) : Except Error Grid := do
  let s ← b.current
  Grid.ofSequence s b.registry b.timing

/-- The DDS changes of the current sequence, in the order of time. -/
def transitions (b : Builder) : Except Error (List NamedTransition) := do
  let s ← b.current
  if b.timing.resolution = 0 ∧ s.ddsEvents ≠ [] then throw (.trap .divisionByZero)
  return (s.transitions b.timing).map fun t =>
    let name := match b.registry.ddsAt? t.channel with
      | some d => d.name
      | none => Registry.ddsLabel t.channel
    ⟨name, t.tick * b.timing.resolution, t⟩

end Builder

end PulseSequencer
