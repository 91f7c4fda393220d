import PowerZones.Entity.Constraint
import PowerZones.Entity.Zone

/-!
# Power domain handles

A RAPL zone kept open together with its long term and its short term
constraint. Constraint 0 is expected to be the long term one, and 1 the short
term one. If both have a name and neither has the name expected of it, they are
taken the other way round.
-/

namespace PowerZones

/-- The control type of RAPL. -/
def raplControlType : String := "intel-rapl"

/-- The address of a RAPL zone. -/
def raplAddress (zones : List UInt32) : Address :=
  { controlType := raplControlType, zones := zones }

/-- A RAPL zone with the constraints for its two terms. -/
structure PowerDomain where
  zone : Zone
  longTerm : Constraint
  shortTerm : Constraint
  deriving DecidableEq, Repr

/-- Whether a constraint has a name, and not the one of that term. -/
def Constraint.misnamed (c : Constraint) (term : Term) : Action Bool := do
  match ← c.name.attempt with
  | .ok name => return name ≠ term.label
  | .error _ => return false

namespace PowerDomain

/-- The constraint for a term. -/
def constraint (d : PowerDomain) : Term → Constraint
  | .long => d.longTerm
  | .short => d.shortTerm

/-- The same domain with its constraints the other way round. -/
def swap (d : PowerDomain) : PowerDomain :=
  { d with longTerm := d.shortTerm, shortTerm := d.longTerm }

/-- Closes the zone and both constraints. -/
def close (d : PowerDomain) : Action PowerDomain := do
  let zone ← d.zone.close
  let longTerm ← d.longTerm.close
  let shortTerm ← d.shortTerm.close
  return { zone := zone, longTerm := longTerm, shortTerm := shortTerm }

/-- The descriptors it keeps open. -/
def descriptors (d : PowerDomain) : List DescriptorId :=
  d.zone.descriptors ++ d.longTerm.descriptors ++ d.shortTerm.descriptors

/-- What is said of a zone whose constraints are the other way round. -/
def swapText (a : Address) : String :=
  "long and short term constraints are out of order for zone " ++ a.directoryName

/-- Puts the constraints in order. -/
def order (logger : Logger) (a : Address) (d : PowerDomain) : Action PowerDomain := do
  let long ← d.longTerm.misnamed .long
  let short ← d.shortTerm.misnamed .short
  if long && short then
    Action.note logger .warn (swapText a)
    return d.swap
  else return d

end PowerDomain

/-- Opens a RAPL zone with its constraints, for reading only or also for
writing. If a part fails, those opened before are closed. -/
def Tree.openDomain (t : Tree) (zones : List UInt32) (readOnly : Bool) : Action PowerDomain := do
  let a := raplAddress zones
  let zone ← t.openZone a readOnly
  let longTerm ← (t.openConstraint a Term.long.number readOnly).onFailure zone.slots.closeAll
  let shortTerm ← (t.openConstraint a Term.short.number readOnly).onFailure do
    zone.slots.closeAll
    longTerm.slots.closeAll
  PowerDomain.order t.logger a { zone := zone, longTerm := longTerm, shortTerm := shortTerm }

end PowerZones
