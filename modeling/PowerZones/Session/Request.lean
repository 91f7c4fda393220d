import PowerZones.Files.Edit
import PowerZones.Session.Report
import PowerZones.Tree.Census

/-!
# Requests

Everything that can be asked of a power capping tree in the course of a
session, as data, and what can be answered.

* **`Request`** covers questions, one-shot access, opening, calling and
  dropping handles, and changes of the file system from outside.
* **`Reply`** is what a request comes to when it does not fail.
-/

namespace PowerZones

/-- A question that only looks at the file system. -/
inductive Query where
  | zonePath (a : Address)
  | attributePath (a : Address) (attr : Attribute)
  | zoneExists (a : Address)
  | constraintExists (a : Address) (number : UInt32)
  | zoneCount (parent : Address)
  | constraintCount (a : Address)
  | zoneIndices (parent : Address)
  | controlTypes
  | raplSupported
  deriving DecidableEq, Repr

/-- A one-shot access. -/
inductive OneShot where
  | readNumber (a : Address) (attr : Attribute)
  | writeNumber (a : Address) (attr : Attribute) (v : UInt64)
  | controlTypeEnabled (controlType : String)
  | setControlTypeEnabled (controlType : String) (on : Bool)
  | zoneName (a : Address)
  | zoneEnabled (a : Address)
  | setZoneEnabled (a : Address) (on : Bool)
  | resetZoneEnergy (a : Address)
  | constraintName (a : Address) (number : UInt32)
  | packageCount
  | raplEnabled
  | setRaplEnabled (on : Bool)
  deriving DecidableEq, Repr

/-- A handle to be opened. -/
inductive Opening where
  | controlType (name : String) (readOnly : Bool)
  | zone (a : Address) (readOnly : Bool)
  | constraint (a : Address) (number : UInt32) (readOnly : Bool)
  | package (id : UInt32) (readOnly : Bool)
  deriving DecidableEq, Repr

/-- A call on an open control type. -/
inductive ControlTypeCall where
  | name
  | enabled
  | setEnabled (on : Bool)
  deriving DecidableEq, Repr

/-- A call on an open zone. -/
inductive ZoneCall where
  | maxEnergyRange
  | energy
  | resetEnergy
  | maxPowerRange
  | power
  | enabled
  | setEnabled (on : Bool)
  | name
  | read (attr : ZoneAttribute)
  deriving DecidableEq, Repr

/-- A call on an open constraint. -/
inductive ConstraintCall where
  | powerLimit
  | setPowerLimit (v : UInt64)
  | timeWindow
  | setTimeWindow (v : UInt64)
  | maxPower
  | minPower
  | maxTimeWindow
  | minTimeWindow
  | name
  | read (attr : ConstraintAttribute)
  deriving DecidableEq, Repr

/-- A call on an open package. -/
inductive PackageCall where
  | id
  | domainSet
  | domainSupported (k : Domain)
  | zoneSupports (k : Domain) (attr : ZoneAttribute)
  | zone (k : Domain) (call : ZoneCall)
  | constraintNumber (k : Domain) (term : Term)
  | termSupported (k : Domain) (term : Term)
  | constraintSupports (k : Domain) (term : Term) (attr : ConstraintAttribute)
  | constraint (k : Domain) (term : Term) (call : ConstraintCall)
  deriving DecidableEq, Repr

/-- A call on a handle. -/
inductive Call where
  | controlType (call : ControlTypeCall)
  | zone (call : ZoneCall)
  | constraint (call : ConstraintCall)
  | package (call : PackageCall)
  | close
  | report
  deriving DecidableEq, Repr

/-- Something asked in the course of a session. -/
inductive Request where
  | query (q : Query)
  | oneShot (o : OneShot)
  /-- Open a handle under a name. -/
  | openHandle (handle : String) (what : Opening)
  /-- Call the handle of a name. -/
  | call (handle : String) (call : Call)
  /-- Drop the handle of a name. -/
  | drop (handle : String)
  /-- Change the file system from outside. -/
  | edit (e : Edit)
  /-- The bytes of a file, seen from outside. -/
  | contents (route : Route)
  /-- The number of open descriptors. -/
  | openDescriptors

/-- An open or closed handle. -/
inductive Handle where
  | controlType (c : ControlType)
  | zone (z : Zone)
  | constraint (c : Constraint)
  | package (p : Package)
  deriving DecidableEq, Repr

/-- What a request comes to. -/
inductive Reply where
  | done
  | flag (b : Bool)
  | number (v : UInt64)
  | count (n : UInt32)
  | size (n : Nat)
  | text (s : String)
  | bytes (bs : List UInt8)
  | indices (is : List UInt32)
  | names (ns : List String)
  | domains (s : DomainSet)
  | slot (s : Slot)
  | zone (r : ZoneReport)
  | constraint (r : ConstraintReport)
  | package (rs : List DomainReport)
  /-- No handle of that name takes the call. -/
  | noHandle

end PowerZones
