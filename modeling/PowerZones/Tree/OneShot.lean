import PowerZones.Action
import PowerZones.Tree.Existence

/-!
# One-shot access

Reads and writes that open an attribute, use it and close it again. Whatever
comes of it, no descriptor stays open.
-/

namespace PowerZones

/-- The failure that an error on opening a path for one use comes to. -/
def Failure.ofOneShot (path : String) : OsError → Failure
  | .noEntry => .notFound path
  | e => .ofOpening path e

/-- Opens a path, uses the descriptor and closes it. -/
def Action.withFile {α : Type} (path : String) (access : Access)
    (use : DescriptorId → Action α) : Action α := do
  let node ← Action.query fun fs => (fs.access path access).mapError (Failure.ofOneShot path)
  let descriptor ← Action.openNode node access
  (use descriptor).thenAlways (Action.close descriptor)

/-- What a number says about a switch. -/
def switchedOn (v : UInt64) : Bool :=
  v ≠ 0

/-- The number that a switch is set with. -/
def switchNumber (on : Bool) : UInt64 :=
  if on then 1 else 0

namespace Tree

/-- Reads an attribute as a number. -/
def readNumber (t : Tree) (a : Address) (attr : Attribute) : Action UInt64 := do
  let path ← Action.ofExcept (t.attributePath a attr)
  Action.withFile path .read Action.readNumber

/-- Reads an attribute as a name. -/
def readName (t : Tree) (a : Address) (attr : Attribute) : Action String := do
  let path ← Action.ofExcept (t.attributePath a attr)
  Action.withFile path .read fun descriptor => Action.readText descriptor Field.nameSize

/-- Writes a number to an attribute. One that is never written is refused
before anything else is looked at. -/
def writeNumber (t : Tree) (a : Address) (attr : Attribute) (v : UInt64) : Action Unit := do
  if attr.writable then
    let path ← Action.ofExcept (t.attributePath a attr)
    Action.withFile path .write fun descriptor => Action.writeNumber descriptor v
  else Action.fail (.refused attr.neverWritten)

/-- Whether power capping is on for a control type. -/
def controlTypeEnabled (t : Tree) (controlType : String) : Action Bool :=
  switchedOn <$> t.readNumber { controlType := controlType } (.controlType .enabled)

/-- Switches power capping of a control type on or off. -/
def setControlTypeEnabled (t : Tree) (controlType : String) (on : Bool) : Action Unit :=
  t.writeNumber { controlType := controlType } (.controlType .enabled) (switchNumber on)

/-- The name of a zone. -/
def zoneName (t : Tree) (a : Address) : Action String :=
  t.readName a (.zone .name)

/-- Whether power capping is on for a zone. -/
def zoneEnabled (t : Tree) (a : Address) : Action Bool :=
  switchedOn <$> t.readNumber a (.zone .enabled)

/-- Switches power capping of a zone on or off. -/
def setZoneEnabled (t : Tree) (a : Address) (on : Bool) : Action Unit :=
  t.writeNumber a (.zone .enabled) (switchNumber on)

/-- Resets the energy counter of a zone. -/
def resetZoneEnergy (t : Tree) (a : Address) : Action Unit :=
  t.writeNumber a (.zone .energy) 0

/-- The name of a constraint. -/
def constraintName (t : Tree) (a : Address) (number : UInt32) : Action String :=
  t.readName a (.constraint number .name)

end Tree

end PowerZones
