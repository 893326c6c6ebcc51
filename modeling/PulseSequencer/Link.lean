import PulseSequencer.Wire

/-!
# The link to a board

A link owns a board together with the host's state for it. Work on the board is done in
transactions, which need the board to be attached; a board that is lost in one is detached. An
attempt to connect finds the board if it is plugged in, and attaches it once its initialisation
succeeded.

* `Link`: attachment, connector and what transactions hold.
* `Link.transaction`: work on the attached board.
* `Link.connect`, `Link.disconnect`: attaching and detaching.
* `Link.opened`: a link after its first attempt to connect.
* `Link.Script`: a transaction that runs requests between two changes of the host's state.
-/

namespace PulseSequencer

/-- What looks for a board: the identifier it looks for and how often it has looked. -/
structure Connector where
  deviceId : String
  attempts : Nat
  deriving DecidableEq, Repr, Inhabited

/-- A board behind one lock, together with the host's state `σ`. -/
structure Link (σ : Type) where
  /-- Whether transactions have a board to work on. -/
  attached : Bool
  connector : Connector
  held : Held σ

namespace Link

/-- An operation on a link. What it changed stays when it fails. -/
abbrev Operation (σ α : Type) := EStateM Error (Link σ) α

variable {σ α : Type}

/-- A link with no board attached. -/
def detached (deviceId : String) (state : σ) (bus : Bus) : Link σ :=
  ⟨false, ⟨deviceId, 0⟩, ⟨state, bus⟩⟩

/-- The host's state. -/
def state (l : Link σ) : σ := l.held.state

/-- The bus to the board. -/
def bus (l : Link σ) : Bus := l.held.bus

/-- The link with its board or bus changed from outside. -/
def onBus (l : Link σ) (change : Bus → Bus) : Link σ :=
  { l with held := { l.held with bus := change l.held.bus } }

/-- Does work on the attached board. A disconnection that the work reports detaches the board. -/
def transaction (work : Action σ α) : Operation σ α := fun l =>
  if l.attached then
    match work l.held with
    | .ok a held => .ok a { l with held }
    | .error e held => .error e { l with held, attached := !e.isDisconnection }
  else .error .deviceNotConnected l

/-- Works on the host's state alone, with or without a board. -/
def withState (f : σ → α × σ) : Operation σ α := fun l =>
  let (a, state) := f l.held.state
  .ok a { l with held := { l.held with state } }

/-- Attaches the board, unless one is attached. The board has to be plugged in, and `initialise` has
to succeed on it; changes that a failed initialisation made to the host's state stay. -/
def connect (initialise : Action σ Unit) : Operation σ Unit := fun l =>
  if l.attached then .ok () l
  else
    let l := { l with connector := { l.connector with attempts := l.connector.attempts + 1 } }
    if l.held.bus.board.present then
      match initialise l.held with
      | .ok _ held => .ok () { l with held, attached := true }
      | .error e held => .error e { l with held }
    else .error (.transport (.deviceNotFound l.connector.deviceId)) l

/-- Detaches the board, if one is attached. -/
def disconnect (l : Link σ) : Link σ := { l with attached := false }

/-- A link after its first attempt to connect. A board that could not be attached is no error: it
may be attached later. -/
def opened (deviceId : String) (state : σ) (bus : Bus) (initialise : Action σ Unit) :
    Except Error (Link σ) :=
  match connect initialise (detached deviceId state bus) with
  | .ok _ l => .ok l
  | .error e l => if e.isTrap then .error e else .ok l

/-- Requests that run in order between two changes of the host's state. -/
structure Script (σ : Type) where
  before : EStateM Error σ Unit
  requests : List Wire.Request
  after : EStateM Error σ Unit

/-- A change of the host's state that may fail, as a step of a transaction. -/
def Script.onState (x : EStateM Error σ α) : Action σ α := fun h =>
  match x h.state with
  | .ok a state => .ok a { h with state }
  | .error e state => .error e { h with state }

/-- The work of a script. -/
def Script.work (s : Script σ) : Action σ (List Wire.Answer) := do
  onState s.before
  let answers ← Wire.performAll s.requests
  onState s.after
  return answers

end Link

end PulseSequencer
