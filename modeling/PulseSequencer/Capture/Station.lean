import PulseSequencer.Capture
import PulseSequencer.Link

/-!
# Capture station

A capture station hands each capture to a worker of its own and gives out the result of the latest
request. A worker reads the capture in one transaction, then clears the flag that keeps further
requests away, then sends its result. A worker that dies in its transaction does neither.

* `Worker`: a request and how far its worker has come.
* `Station`: the link, the window, the flag and the workers.
* `Station.perform`, `Station.collect?`, `Station.setWindow`: the operations of a caller.
* `Station.advance`: one step of a worker.
-/

namespace PulseSequencer

/-- How far the worker of a request has come. -/
inductive Progress where
  /-- The transaction has not begun. -/
  | waiting
  /-- The transaction is over; the flag is still set. -/
  | read (result : Except Error (List Byte))
  /-- The flag is cleared; the result is not sent. -/
  | cleared (result : Except Error (List Byte))
  /-- The result is sent. -/
  | sent (result : Except Error (List Byte))
  /-- The worker died in its transaction. -/
  | dead

/-- A request for a number of bytes, and its worker. -/
structure Worker where
  length : Nat
  progress : Progress

/-- The host's side of a capture board. -/
structure Station where
  link : Link Unit
  config : CaptureConfiguration
  /-- Nanoseconds of a capture for which no window is asked. -/
  window : Nat
  /-- A capture is under way. -/
  busy : Bool
  /-- The place of the worker whose result was not collected yet. -/
  pending : Option Nat
  /-- The workers of all requests that were accepted, in order. -/
  workers : List Worker

namespace Station

/-- Prepares a capture board that was just attached. -/
def initialise : Action Unit Unit := Wire.trigger Pulse.resetCapture

/-- A station after its first attempt to connect. -/
def opened (config : CaptureConfiguration) (connectorId : String) (bus : Bus) :
    Except Error Station := do
  let link ← Link.opened connectorId () bus initialise
  return {
    link
    config
    window := config.defaultWindow.toNat
    busy := false
    pending := none
    workers := [] }

/-- An operation on a station. What it changed stays when it fails. -/
abbrev Operation (α : Type) := EStateM Error Station α

/-- An operation on the link of a station. -/
def onLink {α : Type} (x : Link.Operation Unit α) : Operation α := fun s =>
  match x s.link with
  | .ok a link => .ok a { s with link }
  | .error e link => .error e { s with link }

/-- Attaches the board, unless it is attached. -/
def connect : Operation Unit := onLink (Link.connect initialise)

/-- Detaches the board. -/
def disconnect (s : Station) : Station := { s with link := s.link.disconnect }

/-- The bytes of a window. -/
def bytesOf (s : Station) (nanos : Nat) : Except Error Nat := s.config.bufferLength nanos

/-- Changes the window of captures for which none is asked. -/
def setWindow (nanos : Nat) : Operation Unit := fun s =>
  match s.bytesOf nanos with
  | .ok _ => .ok () { s with window := nanos }
  | .error e => .error e s

/-- Hands a capture of a window to a new worker. -/
def perform (nanos : Option Nat) : Operation Unit := fun s =>
  if !s.link.attached then .error .deviceNotConnected s
  else
    match s.bytesOf (nanos.getD s.window) with
    | .error e => .error e s
    | .ok length =>
      if s.busy then .error (.busy .capture) s
      else .ok () { s with
        busy := true
        pending := some s.workers.length
        workers := s.workers ++ [⟨length, .waiting⟩] }

/-- Reads a capture. -/
def read (length : Nat) : Action Unit (List Byte) := do
  Wire.trigger Pulse.resetCapture
  Wire.readPipe Endpoint.timetags length

/-- The station with the progress of a worker replaced. -/
def mark (s : Station) (place : Nat) (w : Worker) (progress : Progress) : Station :=
  { s with workers := s.workers.set place { w with progress } }

/-- The next step of a worker, if there is one. -/
def advance (place : Nat) (s : Station) : Station :=
  match s.workers[place]? with
  | none => s
  | some w =>
    match w.progress with
    | .waiting =>
      match s.link.transaction (read w.length) with
      | .ok bytes link => { s with link }.mark place w (.read (.ok bytes))
      | .error e link =>
        if e.isTrap then { s with link }.mark place w .dead
        else { s with link }.mark place w (.read (.error e))
    | .read result => { s with busy := false }.mark place w (.cleared result)
    | .cleared result => s.mark place w (.sent result)
    | .sent _ | .dead => s

/-- The station once a worker has sent its result or died. -/
def settle (place : Nat) (s : Station) : Station := advance place (advance place (advance place s))

/-- The capture that a result stands for. -/
def outcome : Except Error (List Byte) → Except Error Capture
  | .ok bytes => .ok (Capture.ofBytes bytes)
  | .error e => .error e

/-- The result of the latest request, handed out once. There is no answer yet while its worker is
under way. -/
def collect? (s : Station) : Option (Except Error Capture × Station) :=
  match s.pending with
  | none => some (.error (.invalidMode .noCaptureRequested), s)
  | some place =>
    match s.workers[place]? with
    | some ⟨_, .sent result⟩ => some (outcome result, { s with pending := none })
    | some ⟨_, .dead⟩ | none =>
      some (.error (.invalidMode .captureAbandoned), { s with pending := none })
    | some _ => none

end Station

end PulseSequencer
