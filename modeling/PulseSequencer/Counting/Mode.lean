/-!
# Counting modes

Photons are counted over windows. In normal mode a free-running timer closes them, in differential
mode the pulse sequence does; each mode has a collection time of its own.

* `CollectionMode`: what closes a counting window.
* `CollectionTimes`: the length of a window in each mode, in seconds.
-/

namespace PulseSequencer

/-- What closes a counting window. -/
inductive CollectionMode where
  /-- A free-running timer. -/
  | normal
  /-- The pulse sequence. -/
  | differential
  deriving DecidableEq, Repr, Inhabited

/-- The name of a mode. -/
def CollectionMode.name : CollectionMode → String
  | normal => "Normal"
  | differential => "Differential"

/-- The collection time of each mode, in seconds. -/
structure CollectionTimes where
  normal : Float
  differential : Float
  deriving Repr

namespace CollectionTimes

/-- A tenth of a second in both modes. -/
def default : CollectionTimes := ⟨0.1, 0.1⟩

instance : Inhabited CollectionTimes := ⟨default⟩

/-- The collection time of a mode. -/
def get (t : CollectionTimes) : CollectionMode → Float
  | .normal => t.normal
  | .differential => t.differential

/-- The times with that of one mode replaced. -/
def set (t : CollectionTimes) (mode : CollectionMode) (seconds : Float) : CollectionTimes :=
  match mode with
  | .normal => { t with normal := seconds }
  | .differential => { t with differential := seconds }

end CollectionTimes

end PulseSequencer
