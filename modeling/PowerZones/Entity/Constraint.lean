import PowerZones.Entity.Slot

/-!
# Constraint handles

A constraint of a zone with all its attributes kept open, in the same way as
those of a zone.
-/

namespace PowerZones

/-- A constraint, with a slot for each of its attributes. -/
structure Constraint where
  /-- Its number in the zone. -/
  number : UInt32
  slots : Slots ConstraintAttribute
  deriving DecidableEq, Repr

/-- Opens a constraint of a zone, for reading only or also for writing. -/
def Tree.openConstraint (t : Tree) (a : Address) (number : UInt32) (readOnly : Bool) :
    Action Constraint := do
  let slots ← Slots.openAll
    (fun attr => t.openSlot a (.constraint number attr) (!readOnly && attr.writable))
    Vocabulary.members
  return { number := number, slots := slots }

namespace Constraint

/-- The slot for an attribute. -/
def slot (c : Constraint) (attr : ConstraintAttribute) : Slot :=
  c.slots.slot attr

/-- Whether the constraint has an attribute. -/
def supports (c : Constraint) (attr : ConstraintAttribute) : Bool :=
  (c.slot attr).isOpen

/-- Reads an attribute as a number. -/
def read (c : Constraint) (attr : ConstraintAttribute) : Action UInt64 :=
  (c.slot attr).readNumber

/-- The power limit. -/
def powerLimit (c : Constraint) : Action UInt64 :=
  c.read .powerLimit

/-- Sets the power limit. -/
def setPowerLimit (c : Constraint) (v : UInt64) : Action Unit :=
  (c.slot .powerLimit).writeNumber v

/-- The time window. -/
def timeWindow (c : Constraint) : Action UInt64 :=
  c.read .timeWindow

/-- Sets the time window. -/
def setTimeWindow (c : Constraint) (v : UInt64) : Action Unit :=
  (c.slot .timeWindow).writeNumber v

/-- The greatest power limit. -/
def maxPower (c : Constraint) : Action UInt64 :=
  c.read .maxPower

/-- The least power limit. -/
def minPower (c : Constraint) : Action UInt64 :=
  c.read .minPower

/-- The longest time window. -/
def maxTimeWindow (c : Constraint) : Action UInt64 :=
  c.read .maxTimeWindow

/-- The shortest time window. -/
def minTimeWindow (c : Constraint) : Action UInt64 :=
  c.read .minTimeWindow

/-- The name of the constraint. -/
def name (c : Constraint) : Action String :=
  (c.slot .name).readName

/-- Closes every slot of the constraint. -/
def close (c : Constraint) : Action Constraint := do
  c.slots.closeAll
  return { c with slots := c.slots.closed }

/-- The descriptors it keeps open. -/
def descriptors (c : Constraint) : List DescriptorId :=
  c.slots.descriptors

end Constraint

end PowerZones
