import PulseSequencer.Program
import PulseSequencer.Registry
import PulseSequencer.Sequence.Transition
import PulseSequencer.Number.Turn

/-!
# Compilation

A sequence is compiled by a sweep over the edges of its pulses. Every pulse raises its line at its
first tick and lowers it at its end; a line is high while more pulses raised it than lowered it.
Edges are rounded down to ticks, the total length is rounded up.

* `Edge`, `Edge.ofPulses`, `Edge.passed`: the edges, and how many a line has passed.
* `Edge.mask`: the lines that are high in a tick.
* `compileTtl`, `compileDds`: the two sections.
* `compile`: the program of a sequence.
-/

namespace PulseSequencer

/-- A pulse begins (`rising`) or ends on a line. -/
structure Edge where
  tick : Nat
  line : UInt8
  rising : Bool
  deriving DecidableEq, Repr, Inhabited

namespace Edge

/-- The two edges of each pulse. -/
def ofPulses (timing : Timing) (pulses : List TtlPulse) : List Edge :=
  pulses.flatMap fun p =>
    [⟨timing.ticks p.start, p.line, true⟩, ⟨timing.ticks p.finish, p.line, false⟩]

/-- The number of rising or of falling edges of a line up to and including a tick. -/
def passed (edges : List Edge) (rising : Bool) (line tick : Nat) : Nat :=
  edges.countP fun e => e.rising == rising && e.line.toNat == line && e.tick ≤ tick

/-- Whether more pulses have raised a line than lowered it after all edges of a tick. -/
def high (edges : List Edge) (line tick : Nat) : Bool :=
  passed edges false line tick < passed edges true line tick

/-- The word of the lines that are high in a tick. -/
def mask (edges : List Edge) (tick : Nat) : Word :=
  (List.range lineLimit).foldl (fun w line => w.assign line (high edges line tick)) 0

/-- The ticks after the first one and before the end at which there is an edge, in order. -/
def ticksWithin (edges : List Edge) (total : Nat) : List Nat :=
  ((edges.map Edge.tick).filter fun t => 0 < t ∧ t < total).mergeSort

end Edge

/-- The ticks at which a mask differs from the one before, each with its new mask. -/
def maskChanges (mask : Nat → Word) : Word → List Nat → List (Nat × Word)
  | _, [] => []
  | previous, tick :: rest =>
    if mask tick = previous then maskChanges mask previous rest
    else (tick, mask tick) :: maskChanges mask (mask tick) rest

/-- A tick as a word of the program. -/
def tickWord (timing : Timing) (tick : Nat) : Except Error Word :=
  if tick < Word.count then .ok (BitVec.ofNat 32 tick)
  else .error (.sequenceTooLong (tick * timing.resolution) timing.maxLength)

/-- The record of a mask from a tick onwards. -/
def ttlRecord (timing : Timing) (entry : Nat × Word) : Except Error TtlRecord :=
  (⟨·, entry.2⟩) <$> tickWord timing entry.1

/-- The TTL section: the mask at tick 0, a record per change before the end, and an all-low record
at the end. Pulses are on lines that a word has room for. -/
def compileTtl (pulses : List TtlPulse) (timing : Timing) (total : Nat) :
    Except Error (List TtlRecord) :=
  if pulses.all (fun p => p.line.toNat < lineLimit) then
    let edges := Edge.ofPulses timing pulses
    let mask := Edge.mask edges
    ((0, mask 0) :: maskChanges mask (mask 0) (Edge.ticksWithin edges total) ++ [(total, 0)]).mapM
      (ttlRecord timing)
  else .error (.trap .outOfBounds)

/-- A value scaled onto a word, the ends of the range going to the least and the greatest word.
Values outside are taken as the nearest end, and fractions are cut off. -/
def Span.word (s : Span) (x : Float) : Word := (s.ratio x * 4294967295.0).toUInt32.toBitVec

/-- A value scaled onto a half word. -/
def Span.half (s : Span) (x : Float) : BitVec 16 := (s.ratio x * 65535.0).toUInt16.toBitVec

/-- The range of a phase, in turns. -/
def turnSpan : Span := ⟨0.0, 1.0⟩

/-- A phase in degrees scaled onto a half word, one turn being full scale. -/
def phaseHalf (degrees : Float) : BitVec 16 := turnSpan.half (Turn.reduce degrees / Turn.degrees)

/-- The record of a DDS change. Amplitude and phase are zero in the off state. -/
def ddsRecord (registry : Registry) (timing : Timing) (t : Transition) : Except Error DdsRecord :=
  match registry.ddsAt? t.channel with
  | none => .error (.unknownChannel (Registry.ddsLabel t.channel))
  | some dds => do
    let tick ← tickWord timing t.tick
    return {
      tick
      channel := t.channel
      profile := t.profile
      frequency := dds.boardFrequency.word t.frequency
      amplitude := if t.on then dds.boardAmplitude.half t.amplitude else 0
      phase := if t.on then phaseHalf t.phase else 0 }

/-- The DDS section of a sequence. -/
def compileDds (s : Sequence) (registry : Registry) (timing : Timing) :
    Except Error (List DdsRecord) :=
  (s.transitions timing).mapM (ddsRecord registry timing)

/-- The program of a sequence. -/
def compile (s : Sequence) (registry : Registry) (timing : Timing) : Except Error Program := do
  if timing.maxLength < s.declaredLength then
    throw (.sequenceTooLong s.declaredLength timing.maxLength)
  let total ← s.totalTicks timing
  if total = 0 then throw .emptySequence
  let ttl ← compileTtl s.ttlPulses timing total
  let dds ← compileDds s registry timing
  return ⟨Program.ofRecords ttl dds, total⟩

end PulseSequencer
