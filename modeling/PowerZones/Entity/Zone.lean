import PowerZones.Entity.Slot

/-!
# Zone handles

A zone with all its attributes kept open. The attributes are opened in their
order; those that may be written are opened for writing too, unless the zone is
opened for reading only.
-/

namespace PowerZones

/-- A zone, with a slot for each of its attributes. -/
structure Zone where
  zones : List UInt32
  slots : Slots ZoneAttribute
  deriving DecidableEq, Repr

/-- Opens a zone, for reading only or also for writing. -/
def Tree.openZone (t : Tree) (a : Address) (readOnly : Bool) : Action Zone := do
  let slots ← Slots.openAll
    (fun attr => t.openSlot a (.zone attr) (!readOnly && attr.writable)) Vocabulary.members
  return { zones := a.zones, slots := slots }

namespace Zone

/-- The slot for an attribute. -/
def slot (z : Zone) (attr : ZoneAttribute) : Slot :=
  z.slots.slot attr

/-- Whether the zone has an attribute. -/
def supports (z : Zone) (attr : ZoneAttribute) : Bool :=
  (z.slot attr).isOpen

/-- Reads an attribute as a number. -/
def read (z : Zone) (attr : ZoneAttribute) : Action UInt64 :=
  (z.slot attr).readNumber

/-- The range of the energy counter. -/
def maxEnergyRange (z : Zone) : Action UInt64 :=
  z.read .maxEnergyRange

/-- The energy counter. -/
def energy (z : Zone) : Action UInt64 :=
  z.read .energy

/-- Resets the energy counter. -/
def resetEnergy (z : Zone) : Action Unit :=
  (z.slot .energy).writeNumber 0

/-- The range of the power counter. -/
def maxPowerRange (z : Zone) : Action UInt64 :=
  z.read .maxPowerRange

/-- The current power. -/
def power (z : Zone) : Action UInt64 :=
  z.read .power

/-- Whether power capping is on for the zone. -/
def enabled (z : Zone) : Action Bool :=
  switchedOn <$> z.read .enabled

/-- Switches power capping of the zone on or off. -/
def setEnabled (z : Zone) (on : Bool) : Action Unit :=
  (z.slot .enabled).writeNumber (switchNumber on)

/-- The name of the zone. -/
def name (z : Zone) : Action String :=
  (z.slot .name).readName

/-- Closes every slot of the zone. -/
def close (z : Zone) : Action Zone := do
  z.slots.closeAll
  return { z with slots := z.slots.closed }

/-- The descriptors it keeps open. -/
def descriptors (z : Zone) : List DescriptorId :=
  z.slots.descriptors

end Zone

end PowerZones
