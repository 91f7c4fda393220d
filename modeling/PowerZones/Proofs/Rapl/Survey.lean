import PowerZones.Proofs.Entity.Survey

/-!
# What packages stand on

The surveys of opening a power domain and of opening a package, and that opening
realizes them.

* **`DomainBacking`** is what a power domain stands on; its constraints are in the
  order in which the domain has them.
* **`Tree.surveySubzones`** follows the zones below a package one by one. What
  stops it is what stops `Tree.openSubzones`, because whether a domain was met
  before depends on the names alone.
-/

namespace PowerZones

open PowerZones.Action

/-! ## Backings -/

/-- What a constraint stands on. -/
structure ConstraintBacking where
  number : UInt32
  table : Table ConstraintAttribute

/-- What a zone stands on. -/
structure ZoneBacking where
  zones : List UInt32
  table : Table ZoneAttribute

/-- What a power domain stands on. -/
structure DomainBacking where
  zone : ZoneBacking
  longTerm : ConstraintBacking
  shortTerm : ConstraintBacking

/-- The domains met so far, with what they stand on. -/
abbrev DomainTable := List (Domain × DomainBacking)

/-- A constraint has its number, and stands on its table. -/
structure Constraint.StandsOn (ds : Descriptors) (c : Constraint) (b : ConstraintBacking) :
    Prop where
  number : c.number = b.number
  slots : c.slots.StandOn ds b.table

/-- A zone has its path, and stands on its table. -/
structure Zone.StandsOn (ds : Descriptors) (z : Zone) (b : ZoneBacking) : Prop where
  zones : z.zones = b.zones
  slots : z.slots.StandOn ds b.table

/-- A power domain stands on its parts. -/
structure PowerDomain.StandsOn (ds : Descriptors) (d : PowerDomain) (b : DomainBacking) :
    Prop where
  zone : d.zone.StandsOn ds b.zone
  longTerm : d.longTerm.StandsOn ds b.longTerm
  shortTerm : d.shortTerm.StandsOn ds b.shortTerm

/-- Domains were met in the same order, and each stands on what was found for it. -/
def domainsStandOn (ds : Descriptors) : List (Domain × PowerDomain) → DomainTable → Prop :=
  List.Forall₂ fun d found => d.1 = found.1 ∧ d.2.StandsOn ds found.2

section Extends

variable {ds ds' : Descriptors}

theorem Constraint.StandsOn.of_extends {c : Constraint} {b : ConstraintBacking}
    (h : c.StandsOn ds b) (hds : ds.Extends ds') : c.StandsOn ds' b :=
  ⟨h.number, h.slots.of_extends hds⟩

theorem Zone.StandsOn.of_extends {z : Zone} {b : ZoneBacking} (h : z.StandsOn ds b)
    (hds : ds.Extends ds') : z.StandsOn ds' b :=
  ⟨h.zones, h.slots.of_extends hds⟩

theorem PowerDomain.StandsOn.of_extends {d : PowerDomain} {b : DomainBacking}
    (h : d.StandsOn ds b) (hds : ds.Extends ds') : d.StandsOn ds' b :=
  ⟨h.zone.of_extends hds, h.longTerm.of_extends hds, h.shortTerm.of_extends hds⟩

theorem domainsStandOn_of_extends {met : List (Domain × PowerDomain)} {table : DomainTable}
    (h : domainsStandOn ds met table) (hds : ds.Extends ds') : domainsStandOn ds' met table :=
  h.imp fun _ _ hd => ⟨hd.1, hd.2.of_extends hds⟩

end Extends

theorem keys_eq_of_standOn {ds : Descriptors} {met : List (Domain × PowerDomain)}
    {table : DomainTable} (h : domainsStandOn ds met table) :
    met.map Prod.fst = table.map Prod.fst := by
  induction h with
  | nil => rfl
  | cons hd _ ih => rw [List.map_cons, List.map_cons, hd.1, ih]

/-- A domain was met before just where one was found before. -/
theorem isSome_lookup_of_standOn {ds : Descriptors} {met : List (Domain × PowerDomain)}
    {table : DomainTable} (h : domainsStandOn ds met table) (k : Domain) :
    (met.lookup k).isSome = (table.lookup k).isSome := by
  rw [Bool.eq_iff_iff, Keyed.isSome_lookup_iff, Keyed.isSome_lookup_iff, keys_eq_of_standOn h]

/-! ## Power domains -/

/-- What reading the name of a constraint comes to. -/
def ConstraintBacking.name (b : ConstraintBacking) (fs : FileSystem) : Except Failure String :=
  (b.table.lookup .name).join.elim (.error .unsupported) fun found => fs.nameAt found.node

/-- Whether a constraint has a name, and not the one of that term. -/
def ConstraintBacking.misnamed (b : ConstraintBacking) (term : Term) (fs : FileSystem) : Bool :=
  match b.name fs with
  | .ok name => name ≠ term.label
  | .error _ => false

theorem Constraint.StandsOn.realizes_misnamed {c : Constraint} {b : ConstraintBacking} {host : Host}
    (h : c.StandsOn host.descriptors b) (term : Term) :
    (c.misnamed term).Realizes host (.look fun fs => .ok (b.misnamed term fs))
      fun _ x y => x = y := by
  have hname : c.name.run host = ⟨b.name host.files, host, []⟩ :=
    (h.slots.slot ConstraintAttribute.name).run_readName
  have hrun : (c.misnamed term).run host = ⟨.ok (b.misnamed term host.files), host, []⟩ := by
    simp only [Constraint.misnamed, run_bind, run_attempt, hname, ConstraintBacking.misnamed]
    cases b.name host.files <;> rfl
  exact realizes_of_run hrun rfl rfl

namespace DomainBacking

/-- The same with the constraints the other way round. -/
def swap (b : DomainBacking) : DomainBacking :=
  { b with longTerm := b.shortTerm, shortTerm := b.longTerm }

/-- What becomes of the order of the constraints. -/
def order (logger : Logger) (a : Address) (b : DomainBacking) : Survey DomainBacking := do
  let long ← Survey.look fun fs => .ok (b.longTerm.misnamed .long fs)
  let short ← Survey.look fun fs => .ok (b.shortTerm.misnamed .short fs)
  if long && short then
    Survey.note logger .warn (PowerDomain.swapText a)
    return b.swap
  else return b

end DomainBacking

theorem PowerDomain.realizes_order {d : PowerDomain} {b : DomainBacking} {host : Host}
    (logger : Logger) (a : Address) (h : d.StandsOn host.descriptors b) :
    (d.order logger a).Realizes host (b.order logger a) PowerDomain.StandsOn := by
  refine (h.longTerm.realizes_misnamed .long).bind fun long long' next _ hext heq => ?_
  subst heq
  have hnext := h.of_extends hext
  refine (hnext.shortTerm.realizes_misnamed .short).bind fun short short' last _ hext' heq => ?_
  subst heq
  have hlast := hnext.of_extends hext'
  -- swapped or not, the domain stands on its parts in the order of the survey
  split
  · exact (realizes_note _ _ _).bind fun _ _ _ _ hext'' _ =>
      realizes_pure ((⟨hlast.zone, hlast.shortTerm, hlast.longTerm⟩ :
        PowerDomain.StandsOn _ d.swap b.swap).of_extends hext'')
  · exact realizes_pure hlast

namespace Tree

variable (t : Tree) (readOnly : Bool)

/-- What a power domain stands on when it is opened. -/
def surveyDomain (zones : List UInt32) : Survey DomainBacking := do
  let a := raplAddress zones
  let zone ← t.surveyZone a readOnly
  let longTerm ← t.surveyConstraint a readOnly Term.long.number
  let shortTerm ← t.surveyConstraint a readOnly Term.short.number
  DomainBacking.order t.logger a
    { zone := ⟨zones, zone⟩
      longTerm := ⟨Term.long.number, longTerm⟩
      shortTerm := ⟨Term.short.number, shortTerm⟩ }

theorem realizes_openDomain (zones : List UInt32) (host : Host) :
    (t.openDomain zones readOnly).Realizes host (t.surveyDomain readOnly zones)
      PowerDomain.StandsOn := by
  refine (t.realizes_openZone _ readOnly host).bind fun zone zoneTable next _ _ hzone => ?_
  have hcloseZone : zone.slots.closeAll.Silent := silent_of_closing zone.slots.run_closeAll
  refine ((t.realizes_openConstraint _ readOnly next _).onFailure hcloseZone).bind
    fun longTerm longTable next' _ hext hlong => ?_
  have hcloseBoth : (do zone.slots.closeAll; longTerm.slots.closeAll : Action Unit).Silent :=
    hcloseZone.bind fun _ => silent_of_closing longTerm.slots.run_closeAll
  refine ((t.realizes_openConstraint _ readOnly next' _).onFailure hcloseBoth).bind
    fun shortTerm shortTable last _ hext' hshort => ?_
  refine PowerDomain.realizes_order t.logger _ ⟨?_, ?_, ?_⟩
  · exact ⟨hzone.1, hzone.2.of_extends (hext.trans hext')⟩
  · exact ⟨hlong.1, hlong.2.of_extends hext'⟩
  · exact ⟨hshort.1, hshort.2⟩

/-! ## Packages -/

/-- What a RAPL zone is recognised as. -/
def surveyIdentity (zones : List UInt32) : Survey Domain := do
  let name ← t.surveyName (raplAddress zones) (.zone .name)
  match Domain.classify name with
  | some domain => return domain
  | none =>
    Survey.note t.logger .error (unrecognizedText name (raplAddress zones))
    Survey.fail (.unrecognizedDomain name)

theorem realizes_identify (zones : List UInt32) (host : Host) :
    (t.identify zones).Realizes host (t.surveyIdentity zones) fun _ k k' => k = k' := by
  refine (t.realizes_readName _ _).bind fun name name' next _ _ heq => ?_
  subst heq
  cases Domain.classify name with
  | some domain => exact realizes_pure rfl
  | none => exact (realizes_note _ _ _).bind fun _ _ _ _ _ _ => realizes_fail _

/-- What becomes of the zone with an index below a package, given the domains
met so far. -/
def surveySubzone (id : UInt32) (met : DomainTable) (index : UInt32) :
    Survey (Domain × DomainBacking) := do
  let domain ← t.surveyIdentity [id, index]
  if (met.lookup domain).isSome then
    Survey.note t.logger .error (duplicateText domain id index)
    Survey.fail (.duplicateDomain domain id index)
  else
    let found ← t.surveyDomain readOnly [id, index]
    return (domain, found)

/-- What becomes of the zones with some indices below a package, given the
domains met so far. -/
def surveySubzones (id : UInt32) : DomainTable → List UInt32 → Survey DomainTable
  | met, [] => pure met
  | met, index :: rest => do
    let found ← t.surveySubzone readOnly id met index
    surveySubzones id (met ++ [found]) rest

/-- What the domains of a package stand on when it is opened. -/
def surveyPackage (id : UInt32) : Survey DomainTable := do
  let domain ← t.surveyIdentity [id]
  let found ← t.surveyDomain readOnly [id]
  let count ← Survey.look fun fs => t.zoneCount fs (raplAddress [id])
  t.surveySubzones readOnly id [(domain, found)] (indicesBelow count)

theorem realizes_openSubzone (id index : UInt32) {met : List (Domain × PowerDomain)}
    {table : DomainTable} {host : Host} (hmet : domainsStandOn host.descriptors met table) :
    (t.openSubzone id readOnly met index).Realizes host (t.surveySubzone readOnly id table index)
      fun ds d found => d.1 = found.1 ∧ d.2.StandsOn ds found.2 := by
  refine (t.realizes_identify _ host).bind fun domain domain' next _ _ heq => ?_
  subst heq
  rw [isSome_lookup_of_standOn hmet]
  split
  · exact (realizes_note _ _ _).bind fun _ _ _ _ _ _ => realizes_fail _
  · exact (t.realizes_openDomain readOnly _ next).bind
      fun opened found _ _ _ hopened => realizes_pure ⟨rfl, hopened⟩

theorem realizes_openSubzones (id : UInt32) (indices : List UInt32)
    {met : List (Domain × PowerDomain)} {table : DomainTable} {host : Host}
    (hmet : domainsStandOn host.descriptors met table) :
    (t.openSubzones id readOnly met indices).Realizes host
      (t.surveySubzones readOnly id table indices) domainsStandOn := by
  induction indices generalizing met table host with
  | nil => exact realizes_pure hmet
  | cons index rest ih =>
    have hclose : (closeDomains met).Silent := silent_of_closing (run_closeDomains met)
    rw [t.openSubzones_cons]
    refine ((t.realizes_openSubzone readOnly id index hmet).onFailure hclose).bind
      fun opened found next _ hext hopened => ih ?_
    -- the domains met before are still open, and the new one is put after them
    exact List.rel_append (domainsStandOn_of_extends hmet hext) (.cons hopened .nil)

theorem realizes_openPackage (id : UInt32) (host : Host) :
    (t.openPackage id readOnly).Realizes host (t.surveyPackage readOnly id)
      fun ds p table => p.id = id ∧ domainsStandOn ds p.domains table := by
  refine (t.realizes_identify _ host).bind fun domain domain' next _ _ heq => ?_
  subst heq
  refine (t.realizes_openDomain readOnly _ next).bind fun opened found next' _ _ hopened => ?_
  have hclose : (closeDomains [(domain, opened)]).Silent := silent_of_closing (run_closeDomains _)
  refine ((realizes_query _).onFailure hclose).bind fun count count' last _ hext heq => ?_
  obtain ⟨rfl, -⟩ := heq
  have hmet : domainsStandOn last.descriptors [(domain, opened)] [(domain, found)] :=
    .cons ⟨rfl, hopened.of_extends hext⟩ .nil
  exact (t.realizes_openSubzones readOnly id (indicesBelow count) hmet).returns
    fun _ _ _ hdomains => ⟨rfl, hdomains⟩

end Tree

end PowerZones
