import PowerZones.Entity.Slot

/-!
# Control type handles

A control type kept open.
-/

namespace PowerZones

/-- A control type, with its switch kept open. -/
structure ControlType where
  name : String
  enabledSlot : Slot
  deriving DecidableEq, Repr

/-- Opens a control type, for reading only or also for writing. -/
def Tree.openControlType (t : Tree) (name : String) (readOnly : Bool) : Action ControlType := do
  let slot ← t.openSlot { controlType := name } (.controlType .enabled) !readOnly
  return { name := name, enabledSlot := slot }

namespace ControlType

/-- Whether power capping is on for the control type. -/
def enabled (c : ControlType) : Action Bool :=
  switchedOn <$> c.enabledSlot.readNumber

/-- Switches power capping of the control type on or off. -/
def setEnabled (c : ControlType) (on : Bool) : Action Unit :=
  c.enabledSlot.writeNumber (switchNumber on)

/-- Closes the control type. -/
def close (c : ControlType) : Action ControlType := do
  c.enabledSlot.close
  return { c with enabledSlot := .absent }

/-- The descriptors it keeps open. -/
def descriptors (c : ControlType) : List DescriptorId :=
  c.enabledSlot.descriptor?.toList

end ControlType

end PowerZones
