import PulseSequencer.Board

/-!
# Listeners

Every session listens to the switches that others make. A notice is put into the inbox of every
registered listener but the one that caused it. Listeners whose inbox is gone are forgotten when a
notice cannot be delivered to them.

* `SwitchEvent`, `Notice`: what listeners are told.
* `Listeners`: who is registered, and the inboxes.
* `Listeners.register`, `Listeners.unregister`, `Listeners.publish`: the registry.
* `Listeners.take`, `Listeners.takeAll`, `Listeners.close`: an inbox.
-/

namespace PulseSequencer

/-- How a line was switched. -/
inductive SwitchEvent where
  | manualOn
  | manualOff
  | auto
  deriving DecidableEq, Repr, Inhabited

/-- The name of a way of switching. -/
def SwitchEvent.name : SwitchEvent → String
  | manualOn => "ManualOn"
  | manualOff => "ManualOff"
  | auto => "Auto"

/-- A line was switched. -/
structure Notice where
  channel : String
  event : SwitchEvent
  deriving DecidableEq, Repr, Inhabited

/-- The identity of a session. Identities are numbered without a bound: a 64-bit counter gives the
same ones until `2 ^ 64` sessions have been opened, and begins anew after that. -/
abbrev SessionId := Nat

/-- The registered listeners and the inboxes that are open. -/
structure Listeners where
  /-- The identity of the next session, one more than that of the last one opened. -/
  next : SessionId
  /-- The registered listeners, the oldest first. -/
  registered : List SessionId
  /-- What waits in each open inbox, the oldest notice first. -/
  inbox : SessionId → Option (List Notice)

namespace Listeners

/-- Nobody listens. -/
def empty : Listeners := ⟨0, [], fun _ => none⟩

instance : Inhabited Listeners := ⟨empty⟩

/-- Registers a new listener with an empty inbox. -/
def register (l : Listeners) : SessionId × Listeners :=
  (l.next, ⟨l.next + 1, l.registered ++ [l.next], setAt l.inbox l.next (some [])⟩)

/-- Takes a listener off the register. Its inbox stays as it is. -/
def unregister (l : Listeners) (id : SessionId) : Listeners :=
  { l with registered := l.registered.filter (· ≠ id) }

/-- Closes an inbox. -/
def close (l : Listeners) (id : SessionId) : Listeners := { l with inbox := setAt l.inbox id none }

/-- Delivers a notice to every registered listener except `origin`, and forgets those that it cannot
be delivered to. -/
def publish (l : Listeners) (origin : Option SessionId) (notice : Notice) : Listeners where
  next := l.next
  registered := l.registered.filter fun id => some id = origin ∨ (l.inbox id).isSome
  inbox := fun id =>
    (l.inbox id).map fun waiting =>
      if id ∈ l.registered ∧ some id ≠ origin then waiting ++ [notice] else waiting

/-- What waits in an inbox; nothing if it is closed. -/
def waiting (l : Listeners) (id : SessionId) : List Notice := (l.inbox id).getD []

/-- The oldest notice of an inbox, taken out of it. -/
def take (l : Listeners) (id : SessionId) : Option Notice × Listeners :=
  match l.inbox id with
  | some (n :: rest) => (some n, { l with inbox := setAt l.inbox id (some rest) })
  | _ => (none, l)

/-- All notices of an inbox, taken out of it. -/
def takeAll (l : Listeners) (id : SessionId) : List Notice × Listeners :=
  match l.inbox id with
  | some notices => (notices, { l with inbox := setAt l.inbox id (some []) })
  | none => ([], l)

end Listeners

end PulseSequencer
