import PulseSequencer.Link
import PulseSequencer.Sequencer.Controller
import PulseSequencer.Counting
import PulseSequencer.Capture
import PulseSequencer.Sequence.Builder
import PulseSequencer.Session.Listeners

/-!
# The instrument

The instrument is the front end of a pulser board. All callers share it; each builds sequences in a
session of its own and hears of the line switches that others make. Work on the board is one
transaction per operation, and requests are checked before the transaction begins.

* `Host`: what the host keeps for the board.
* `Instrument`: the link, the registry, the configuration and the listeners.
* `Session`: a caller's builder.
* `Instrument.opened`: the instrument of a configuration.
* Programs and runs, counting, time tags, line switches, sessions: the operations.
-/

namespace PulseSequencer

/-- What the host keeps for the board. -/
structure Host where
  controller : Controller
  counting : Counting
  lines : LineTable

namespace Host

/-- Work on the sequencer. -/
def onController {α : Type} (x : Action Controller α) : Action Host α :=
  Action.focus Host.controller (fun h controller => { h with controller }) x

/-- Work on the counting setup. -/
def onCounting {α : Type} (x : Action Counting α) : Action Host α :=
  Action.focus Host.counting (fun h counting => { h with counting }) x

/-- Brings a board that was just attached to the host's state: the lines and the counting setup are
written, records and synthesizers are reset, and the sequencer is taken to have no program. -/
def initialise : Action Host Unit := do
  let register ← Action.ofExcept (← Action.state).lines.register
  Wire.set Endpoint.manual register.manual Word.all
  Wire.set Endpoint.level register.level Word.all
  Wire.commit
  onCounting Counting.apply
  onCounting Counting.resetFifo
  Wire.trigger Pulse.resetDds
  Action.change ({ · with controller := .idle })

/-- A bit of a word where `b` holds, and no bit otherwise. -/
def bitIf (index : UInt8) (b : Bool) : Word := if b then BitVec.twoPow 32 index.toNat else 0

/-- Writes the two bits of a line. -/
def writeLine (index : UInt8) (line : LineState) : Action Host Unit := do
  if lineLimit ≤ index.toNat then throw (.trap .overflow)
  let bit := BitVec.twoPow 32 index.toNat
  Wire.set Endpoint.manual (bitIf index line.manual) bit
  Wire.set Endpoint.level (bitIf index line.levelBit) bit
  Wire.commit

/-- Changes the state of a line on the board, and keeps the change once the board has it. -/
def switchLine (index : UInt8) (update : LineState → LineState) : Action Host LineState := do
  let line := update (((← Action.state).lines index).getD default)
  writeLine index line
  Action.change fun h => { h with lines := h.lines.insert index line }
  return line

/-- Reads every whole time tag that waits on the board. -/
def drainTimetags : Action Host (List TimeTag) := do
  let words ← Wire.read Endpoint.timetagTotal
  let length := words.toNat * 2 / TimeTag.size * TimeTag.size
  if length = 0 then return []
  else return TimeTag.readAll (← Wire.readPipe Endpoint.timetags length)

end Host

/-- The front end of a pulser board. -/
structure Instrument where
  link : Link Host
  registry : Registry
  config : Configuration
  listeners : Listeners

/-- A caller's sequence builder, under the identity by which the caller is notified. -/
structure Session where
  id : SessionId
  builder : Builder
  deriving Repr

namespace Instrument

/-- The power-on state of the lines of a registry. -/
def initialLines (registry : Registry) : LineTable :=
  registry.channels.foldl (fun t c => t.insert c.index c.initial) .empty

/-- What the host keeps for a board before anything was done to it. -/
def initialHost (config : Configuration) (registry : Registry) : Host where
  controller := .idle
  counting := ⟨config.collectionMode, config.collectionTimes, config.collectionRange⟩
  lines := initialLines registry

/-- The instrument of a consistent configuration, after its first attempt to connect. -/
def opened (config : Configuration) (connectorId : String) (bus : Bus) :
    Except Error Instrument := do
  let registry ← Registry.ofConfiguration config
  let link ← Link.opened connectorId (initialHost config registry) bus Host.initialise
  return { link, registry, config, listeners := .empty }

/-- An operation on an instrument. What it changed stays when it fails. -/
abbrev Operation (α : Type) := EStateM Error Instrument α

/-- An operation on the link of an instrument. -/
def onLink {α : Type} (x : Link.Operation Host α) : Operation α := fun i =>
  match x i.link with
  | .ok a link => .ok a { i with link }
  | .error e link => .error e { i with link }

/-- A transaction on the board. -/
def transaction {α : Type} (work : Action Host α) : Operation α := onLink (Link.transaction work)

/-- A result that needs no board. -/
def ofExcept {α : Type} : Except Error α → Operation α
  | .ok a => pure a
  | .error e => throw e

/-- The host's state. -/
def host (i : Instrument) : Host := i.link.state

/-- Attaches the board, unless it is attached. -/
def connect : Operation Unit := onLink (Link.connect Host.initialise)

/-- Detaches the board. -/
def disconnect (i : Instrument) : Instrument := { i with link := i.link.disconnect }

/-! ## Programs and runs -/

/-- Uploads a program. -/
def program (p : Program) : Operation Unit := transaction (Host.onController (Controller.program p))

/-- Compiles and uploads the sequence of a session. -/
def programSequence (s : Session) : Operation Unit := do
  let p ← ofExcept s.builder.compile
  program p

/-- Runs the program once. -/
def startSingle : Operation Unit := transaction (Host.onController Controller.startSingle)

/-- Runs the program until it is stopped. -/
def startInfinite : Operation Unit := transaction (Host.onController Controller.startInfinite)

/-- Runs the program a number of times. -/
def startCounted (count : Nat) : Operation Unit := do
  let _ ← ofExcept (Controller.checkRepetitions count)
  transaction (Host.onController (Controller.startCounted count))

/-- Lets an infinite run finish its current cycle and halt. -/
def complete : Operation Unit := transaction (Host.onController Controller.complete)

/-- Halts the sequencer and clears its program. -/
def stop : Operation Unit := transaction (Host.onController Controller.stop)

/-- The repetitions completed in a looped run. -/
def repetitions : Operation Word := transaction (Host.onController Controller.repetitions)

/-- Looks at the done flag once. -/
def pollDone : Operation Bool := transaction (Host.onController Controller.pollDone)

/-- The number of pauses of `interval` milliseconds, at least one each, that cover a time. -/
def pauses (interval time : Nat) : Nat := (time + max interval 1 - 1) / max interval 1

/-- Looks at the done flag until it is set, once before and once after each pause. The lock is free
in a pause, and others may change the bus then: `meanwhile k` is what they do in the pause that is
followed by `k` more. -/
def waitDone (meanwhile : Nat → Bus → Bus) : (pauses : Nat) → Operation Bool
  | 0 => pollDone
  | k + 1 => do
    if ← pollDone then return true
    modify fun i => { i with link := i.link.onBus (meanwhile k) }
    waitDone meanwhile k

/-! ## Counting -/

/-- Reads every whole count record that waits on the board. -/
def counts (readTime : Float) : Operation (List Sample) :=
  transaction (Host.onCounting (Counting.drain readTime))

/-- Clears the count records that wait on the board. -/
def resetCounts : Operation Unit := transaction (Host.onCounting Counting.resetFifo)

/-- Changes the counting mode. -/
def setMode (mode : CollectionMode) : Operation Unit :=
  transaction (Host.onCounting (Counting.setMode mode))

/-- Keeps the collection time of a mode without telling the board. -/
def storeTime (seconds : Float) (mode : CollectionMode) : Operation Unit := do
  let i ← get
  let counting ← ofExcept (i.host.counting.store seconds mode)
  onLink (Link.withState fun h => ((), { h with counting }))

/-- Changes the collection time of a mode. Only that of normal mode is written to the board; in
differential mode the sequence closes the windows. -/
def setCollectionTime (seconds : Float) (mode : CollectionMode) : Operation Unit := do
  let i ← get
  ofExcept (i.host.counting.checkTime seconds)
  match mode with
  | .normal => transaction (Host.onCounting (Counting.setNormalTime seconds))
  | .differential => storeTime seconds mode

/-! ## Time tags -/

/-- Reads every whole time tag that waits on the board. -/
def timetags : Operation (List TimeTag) := transaction Host.drainTimetags

/-- Clears the time tags that wait on the board. -/
def resetTimetags : Operation Unit := transaction (Wire.trigger Pulse.resetTimetags)

/-! ## Lines -/

/-- Changes the state of a channel's line on the board. -/
def switchLine (channel : String) (update : LineState → LineState) : Operation LineState := do
  let i ← get
  let index ← ofExcept (i.registry.hardwareIndex channel)
  transaction (Host.switchLine index update)

/-- Tells every session but `origin` that a channel was switched. -/
def notify (origin : Option SessionId) (channel : String) (event : SwitchEvent) : Operation Unit :=
  modify fun i => { i with listeners := i.listeners.publish origin ⟨channel, event⟩ }

/-- A line held at a level, or at the one it was last held at. -/
def heldAt (level : Option Bool) (line : LineState) : LineState :=
  { line with manual := true, level := level.getD line.level }

/-- A line driven by the sequencer, its inversion changed or kept. -/
def drivenWith (inverted : Option Bool) (line : LineState) : LineState :=
  { line with manual := false, autoInverted := inverted.getD line.autoInverted }

/-- Holds a channel's line at a level, or at the one it was last held at. -/
def switchManual (origin : Option SessionId) (channel : String) (level : Option Bool) :
    Operation Unit := do
  let line ← switchLine channel (heldAt level)
  notify origin channel (if line.level then .manualOn else .manualOff)

/-- Hands a channel's line back to the sequencer, its inversion changed or kept. -/
def switchAuto (origin : Option SessionId) (channel : String) (inverted : Option Bool) :
    Operation Unit := do
  let _ ← switchLine channel (drivenWith inverted)
  notify origin channel .auto

/-- The state of a channel's line. -/
def lineState (i : Instrument) (channel : String) : Except Error LineState := do
  let index ← i.registry.hardwareIndex channel
  match i.host.lines index with
  | some line => return line
  | none => throw (.unknownChannel channel)

/-! ## Sessions -/

/-- Opens a session with no sequence. -/
def openSession : Operation Session := do
  let i ← get
  let (id, listeners) := i.listeners.register
  set { i with listeners }
  return ⟨id, Builder.new i.registry i.config.timing⟩

/-- Closes a session: it is told of nothing any more. -/
def closeSession (id : SessionId) (i : Instrument) : Instrument :=
  { i with listeners := (i.listeners.unregister id).close id }

/-- The number of sessions that are open. -/
def sessions (i : Instrument) : Nat := i.listeners.registered.length

/-- The oldest notice of a session, taken out of its inbox. -/
def takeNotice (id : SessionId) : Operation (Option Notice) := do
  let i ← get
  let (notice, listeners) := i.listeners.take id
  set { i with listeners }
  return notice

/-- All notices of a session, taken out of its inbox. -/
def takeNotices (id : SessionId) : Operation (List Notice) := do
  let i ← get
  let (notices, listeners) := i.listeners.takeAll id
  set { i with listeners }
  return notices

end Instrument

end PulseSequencer
