import PulseSequencer.Configuration

/-!
# Channel registry

The registry answers which TTL line or DDS channel a name stands for. It is made of a configuration
that was accepted, so names and indices are unique in each of its two tables.

* `Registry.ofConfiguration`: the registry of a consistent configuration.
* `Registry.channel`, `Registry.hardwareIndex`, `Registry.ddsNamed`, `Registry.ddsAt?`: the
  look-ups.
* `Registry.table`: names and lines, in the order of the lines.
-/

namespace PulseSequencer

/-- The TTL lines, in the order of the board, and the DDS channels. -/
structure Registry where
  channels : List Channel
  dds : List DdsChannel
  deriving Repr, Inhabited

namespace Registry

/-- The registry of a configuration, if that is consistent. -/
def ofConfiguration (c : Configuration) : Except Error Registry := do
  c.validate
  return ⟨c.channels.mergeSort (fun a b => a.index ≤ b.index), c.dds⟩

/-- The TTL line of a name. -/
def channel (r : Registry) (name : String) : Except Error Channel :=
  match r.channels.find? (·.name = name) with
  | some c => .ok c
  | none => .error (.unknownChannel name)

/-- The line number of a name. -/
def hardwareIndex (r : Registry) (name : String) : Except Error UInt8 :=
  (·.index) <$> r.channel name

/-- The DDS channel of a name. -/
def ddsNamed (r : Registry) (name : String) : Except Error DdsChannel :=
  match r.dds.find? (·.name = name) with
  | some d => .ok d
  | none => .error (.unknownChannel name)

/-- The DDS channel of an index. -/
def ddsAt? (r : Registry) (index : UInt8) : Option DdsChannel := r.dds.find? (·.index = index)

/-- The name by which a DDS index without a configured channel goes. -/
def ddsLabel (index : UInt8) : String := "DDS" ++ toString index.toNat

/-- Names and line numbers, in the order of the board. -/
def table (r : Registry) : List (String × UInt8) := r.channels.map fun c => (c.name, c.index)

end Registry

end PulseSequencer
