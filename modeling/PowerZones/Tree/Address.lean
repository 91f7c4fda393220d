import PowerZones.Attribute
import PowerZones.Failure
import PowerZones.Log

/-!
# Addresses and paths

A power capping tree has a root. Below it each control type is a directory,
each zone a directory in that of the zone above it, and each attribute a file.
A zone's directory is called after the control type and all indices on the way,
so `intel-rapl`, `[0, 1]` is `intel-rapl/intel-rapl:0/intel-rapl:0:1`.

* **`Address`** names a control type, or a zone of it.
* **`Tree.zonePath`** and **`Tree.attributePath`** turn an address into a path,
  or say why there is none. Neither looks at a file system.
-/

namespace PowerZones

/-- A power capping tree: where it is, and who hears about it. -/
structure Tree where
  root : String
  logger : Logger := {}
  deriving DecidableEq, Repr

/-- A control type and a path of zones in it. Without zones it is the control
type itself. -/
structure Address where
  controlType : String
  zones : List UInt32 := []
  deriving DecidableEq, Repr

/-- The greatest number of levels of a zone path. -/
def maxDepth : Nat := 16

/-- Where the kernel shows the power capping class. -/
def classRoot : String := "/sys/class/powercap"

/-- Where the kernel shows the power capping devices. -/
def deviceRoot : String := "/sys/devices/virtual/powercap"

namespace Address

/-- The zone with the given index below an address. -/
def child (a : Address) (index : UInt32) : Address :=
  { a with zones := a.zones ++ [index] }

/-- The name of the directory of an address: the control type and the indices
in decimal, separated by colons. -/
def directoryName (a : Address) : String :=
  a.zones.foldl (fun name index => name ++ ":" ++ Nat.repr index.toNat) a.controlType

/-- The address of the ancestor at a depth; depth zero is the control type. -/
def ancestor (a : Address) (depth : Nat) : Address :=
  { a with zones := a.zones.take depth }

/-- The names of the directories on the way to an address, outermost first. -/
def directoryNames (a : Address) : List String :=
  (List.range (a.zones.length + 1)).map fun depth => (a.ancestor depth).directoryName

/-- What stands before the index in the names of the zones below an address. -/
def childPrefix (a : Address) : String :=
  a.directoryName ++ ":"

end Address

/-- Whether a name is one plain component of a path, without any dot. -/
def plainComponent (name : String) : Bool :=
  name ≠ "" && !name.toList.contains '.' && !name.toList.contains '/'

/-- Refuses a control type name that is not a plain component. -/
def checkControlType (name : String) : Except Failure Unit :=
  if plainComponent name then .ok () else .error (.refused (.controlTypeName name))

/-- Refuses a zone path with too many levels. -/
def checkDepth (zones : List UInt32) : Except Failure Unit :=
  if zones.length > maxDepth then .error (.refused (.tooDeep zones.length maxDepth)) else .ok ()

/-- Refuses a path that leaves no room for its terminator. -/
def checkSize (path : String) : Except Failure String :=
  if path.utf8ByteSize ≥ maxPathSize then .error (.pathTooLong path.utf8ByteSize) else .ok path

namespace Tree

/-- The path of the directory of an address. -/
def zonePath (t : Tree) (a : Address) : Except Failure String := do
  checkControlType a.controlType
  checkDepth a.zones
  checkSize (a.directoryNames.foldl join t.root)

/-- The path of an attribute at an address. A control type has its own
attributes, which none of its zones has. -/
def attributePath (t : Tree) (a : Address) (attr : Attribute) : Except Failure String :=
  if attr.ofControlType ∧ a.zones ≠ [] then .error (.refused (.notInZone attr.fileName))
  else do
    let directory ← t.zonePath a
    checkSize (join directory attr.fileName)

end Tree

end PowerZones
