import PowerZones.Entity.ControlType
import PowerZones.Rapl.Package

/-!
# Reports

All that a handle can tell at one moment: for each attribute its slot, and what
reading the slot as a number comes to.
-/

namespace PowerZones

/-- What there is to tell of one slot. -/
structure SlotReport where
  name : String
  slot : Slot
  value : Except Failure UInt64

/-- What there is to tell of a zone. -/
structure ZoneReport where
  zones : List UInt32
  slots : List SlotReport

/-- What there is to tell of a constraint. -/
structure ConstraintReport where
  number : UInt32
  slots : List SlotReport

/-- What there is to tell of the constraint for a term. -/
structure TermReport where
  term : Term
  supported : Bool
  constraint : Except Failure ConstraintReport

/-- What there is to tell of a domain, whether or not the package has it. -/
structure DomainReport where
  domain : Domain
  supported : Bool
  zone : Except Failure ZoneReport
  terms : List TermReport

/-- Reads every slot of a table. -/
def Slots.report {α : Type} (name : α → String) : Slots α → Action (List SlotReport)
  | [] => pure []
  | s :: rest => do
    let value ← s.2.readNumber.attempt
    let others ← Slots.report name rest
    return { name := name s.1, slot := s.2, value := value } :: others

/-- Reports a zone. -/
def Zone.report (z : Zone) : Action ZoneReport := do
  let slots ← z.slots.report ZoneAttribute.fileName
  return { zones := z.zones, slots := slots }

/-- Reports a constraint. -/
def Constraint.report (c : Constraint) : Action ConstraintReport := do
  let slots ← c.slots.report ConstraintAttribute.suffix
  return { number := c.number, slots := slots }

namespace Package

/-- Reports the constraint of a domain for each of some terms. -/
def reportTerms (p : Package) (k : Domain) : List Term → Action (List TermReport)
  | [] => pure []
  | term :: rest => do
    let constraint ← (p.withConstraint k term Constraint.report).attempt
    let others ← p.reportTerms k rest
    return { term := term, supported := p.termSupported k term, constraint := constraint } :: others

/-- Reports each of some domains. -/
def reportDomains (p : Package) : List Domain → Action (List DomainReport)
  | [] => pure []
  | k :: rest => do
    let zone ← (p.withZone k Zone.report).attempt
    let terms ← p.reportTerms k Vocabulary.members
    let others ← p.reportDomains rest
    return { domain := k, supported := p.domainSupported k, zone := zone, terms := terms } :: others

/-- Reports every domain of a package. -/
def report (p : Package) : Action (List DomainReport) :=
  p.reportDomains Vocabulary.members

end Package

end PowerZones
