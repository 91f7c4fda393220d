import PowerZones.Rapl.PowerDomain

/-!
# Package handles

A RAPL package is a top-level zone together with the zones directly below it.
Each of them is told by its name, and no two may be of one domain.

* **`Tree.openPackage`** opens them in order: the top-level zone, then the
  zones below it by index. At the first problem all is closed again.
* **`Package.domain`** gives the zone of a domain; a domain that the package
  does not have supports nothing.
-/

namespace PowerZones

/-- A RAPL package, with its domains in the order in which they were met. -/
structure Package where
  id : UInt32
  domains : List (Domain × PowerDomain)
  deriving DecidableEq, Repr

/-! ## Opening -/

/-- What is said of a zone whose name tells no domain. -/
def unrecognizedText (name : String) (a : Address) : String :=
  "unrecognized zone name `" ++ name ++ "` at " ++ a.directoryName

/-- What is said of a zone whose domain was met before. -/
def duplicateText (domain : Domain) (id index : UInt32) : String :=
  "duplicate " ++ domain.label ++ " zone detected at " ++ Nat.repr id.toNat ++ ":" ++
    Nat.repr index.toNat

/-- Tells the domain of a RAPL zone by its name. -/
def Tree.identify (t : Tree) (zones : List UInt32) : Action Domain := do
  let name ← t.zoneName (raplAddress zones)
  match Domain.classify name with
  | some domain => return domain
  | none =>
    Action.note t.logger .error (unrecognizedText name (raplAddress zones))
    Action.fail (.unrecognizedDomain name)

/-- Closes all of some domains. -/
def closeDomains : List (Domain × PowerDomain) → Action Unit
  | [] => pure ()
  | d :: rest => do
    let _ ← d.2.close
    closeDomains rest

/-- Opens the zones with the given indices below a package, after the domains
met so far. -/
def Tree.openSubzones (t : Tree) (id : UInt32) (readOnly : Bool) :
    List (Domain × PowerDomain) → List UInt32 → Action (List (Domain × PowerDomain))
  | met, [] => pure met
  | met, index :: rest => do
    let opened ← Action.onFailure (do
        let domain ← t.identify [id, index]
        if (met.lookup domain).isSome then
          Action.note t.logger .error (duplicateText domain id index)
          Action.fail (.duplicateDomain domain id index)
        else
          let opened ← t.openDomain [id, index] readOnly
          return (domain, opened))
      (closeDomains met)
    t.openSubzones id readOnly (met ++ [opened]) rest

/-- The indices below a count. -/
def indicesBelow (count : UInt32) : List UInt32 :=
  (List.range count.toNat).map UInt32.ofNat

/-- Opens a package with every zone in it, for reading only or also for
writing. -/
def Tree.openPackage (t : Tree) (id : UInt32) (readOnly : Bool) : Action Package := do
  let domain ← t.identify [id]
  let opened ← t.openDomain [id] readOnly
  let count ← (Action.query fun fs => t.zoneCount fs (raplAddress [id])).onFailure
    (closeDomains [(domain, opened)])
  let domains ← t.openSubzones id readOnly [(domain, opened)] (indicesBelow count)
  return { id := id, domains := domains }

/-! ## The RAPL control type -/

/-- What is said when there is no package at all. -/
def noPackagesText : String :=
  "no top-level zones found, is the intel_rapl kernel module loaded?"

/-- Whether the RAPL control type exists. -/
def Tree.raplSupported (t : Tree) : Action Bool :=
  Action.query fun fs => t.controlTypeExists fs raplControlType

/-- The number of packages. That there is none is a failure. -/
def Tree.packageCount (t : Tree) : Action UInt32 := do
  let count ← Action.query fun fs => t.zoneCount fs (raplAddress [])
  if count = 0 then
    Action.note t.logger .error noPackagesText
    Action.fail (.notFound (raplControlType ++ " zones"))
  else return count

/-- Whether RAPL power capping is on. -/
def Tree.raplEnabled (t : Tree) : Action Bool :=
  t.controlTypeEnabled raplControlType

/-- Switches RAPL power capping on or off. -/
def Tree.setRaplEnabled (t : Tree) (on : Bool) : Action Unit :=
  t.setControlTypeEnabled raplControlType on

/-! ## Access -/

namespace Package

/-- The zone and constraints of a domain. -/
def domain (p : Package) (k : Domain) : Except Failure PowerDomain :=
  match p.domains.lookup k with
  | some d => .ok d
  | none => .error .unsupported

/-- The domains that the package has. -/
def domainSet (p : Package) : DomainSet where
  has k := (p.domains.lookup k).isSome

/-- The zone of a domain. -/
def zone (p : Package) (k : Domain) : Except Failure Zone :=
  (p.domain k).map PowerDomain.zone

/-- The constraint of a domain for a term. -/
def constraint (p : Package) (k : Domain) (term : Term) : Except Failure Constraint :=
  (p.domain k).map fun d => d.constraint term

/-- Whether the zone of a domain has an attribute. -/
def zoneSupports (p : Package) (k : Domain) (attr : ZoneAttribute) : Bool :=
  match p.zone k with
  | .ok z => z.supports attr
  | .error _ => false

/-- Whether the constraint of a domain for a term has an attribute. -/
def constraintSupports (p : Package) (k : Domain) (term : Term) (attr : ConstraintAttribute) :
    Bool :=
  match p.constraint k term with
  | .ok c => c.supports attr
  | .error _ => false

/-- Whether a term of a domain can be capped. -/
def termSupported (p : Package) (k : Domain) (term : Term) : Bool :=
  p.constraintSupports k term .powerLimit

/-- Whether a domain can be capped at all. -/
def domainSupported (p : Package) (k : Domain) : Bool :=
  p.termSupported k .long

/-- Acts on the zone of a domain. -/
def withZone {α : Type} (p : Package) (k : Domain) (act : Zone → Action α) : Action α := do
  act (← Action.ofExcept (p.zone k))

/-- Acts on the constraint of a domain for a term. -/
def withConstraint {α : Type} (p : Package) (k : Domain) (term : Term)
    (act : Constraint → Action α) : Action α := do
  act (← Action.ofExcept (p.constraint k term))

/-- The number of the constraint of a domain for a term. -/
def constraintNumber (p : Package) (k : Domain) (term : Term) : Except Failure UInt32 :=
  (p.constraint k term).map Constraint.number

/-- Closes every domain. -/
def closeEach : List (Domain × PowerDomain) → Action (List (Domain × PowerDomain))
  | [] => pure []
  | d :: rest => do
    let closed ← d.2.close
    let others ← closeEach rest
    return (d.1, closed) :: others

/-- Closes the package. Its domains stay known. -/
def close (p : Package) : Action Package := do
  let domains ← closeEach p.domains
  return { p with domains := domains }

/-- The descriptors it keeps open. -/
def descriptors (p : Package) : List DescriptorId :=
  p.domains.flatMap fun d => d.2.descriptors

end Package

end PowerZones
