import PowerZones.Proofs.Rapl.Discovery
import PowerZones.Proofs.Session.Getters
import PowerZones.Proofs.Session.SlotOrigin

/-!
# What handles of every kind stand on

One survey for all openings. A handle stands on what it found: that tells all there is
to the handle but the numbers of its descriptors.

* **`HandleBacking`** is what a handle stands on, with a **`HandleBacking.slot`** for each
  slot of the handle;
* **`HandleBacking.outline`** is the handle without its slots, which is what closing it
  leaves;
* **`Opening.realizes_act`**: to open a handle is to find what it stands on;
* **`Handle.reply`** is what a call comes to, and **`Handle.reply_of_get?`** says what it is
  for a call that reads: what there is to read on the node of the slot.
-/

namespace PowerZones

open PowerZones.Action

/-! ## Outlines -/

/-- The slots of a table, all of them absent. -/
def Table.outline {α : Type} (table : Table α) : Slots α :=
  table.map fun s => (s.1, .absent)

def ZoneBacking.outline (b : ZoneBacking) : Zone where
  zones := b.zones
  slots := b.table.outline

def ConstraintBacking.outline (b : ConstraintBacking) : Constraint where
  number := b.number
  slots := b.table.outline

def DomainBacking.outline (b : DomainBacking) : PowerDomain where
  zone := b.zone.outline
  longTerm := b.longTerm.outline
  shortTerm := b.shortTerm.outline

/-- What the constraint for a term stands on. -/
def DomainBacking.constraint (b : DomainBacking) : Term → ConstraintBacking
  | .long => b.longTerm
  | .short => b.shortTerm

section Closed

variable {ds : Descriptors}

theorem Slots.StandOn.closed_eq {α : Type} {slots : Slots α} {table : Table α}
    (h : slots.StandOn ds table) : slots.closed = table.outline := by
  induction h with
  | nil => rfl
  | @cons s found slots table hs _ ih =>
    obtain ⟨hkey, -⟩ := hs
    rw [Slots.closed, Table.outline, List.map_cons, List.map_cons, hkey]
    exact congrArg _ ih

theorem Zone.StandsOn.closed_eq {z : Zone} {b : ZoneBacking} (h : z.StandsOn ds b) :
    z.closed = b.outline := by
  simp only [closed, ZoneBacking.outline, h.zones, h.slots.closed_eq]

theorem Constraint.StandsOn.closed_eq {c : Constraint} {b : ConstraintBacking}
    (h : c.StandsOn ds b) : c.closed = b.outline := by
  simp only [closed, ConstraintBacking.outline, h.number, h.slots.closed_eq]

theorem PowerDomain.StandsOn.closed_eq {d : PowerDomain} {b : DomainBacking}
    (h : d.StandsOn ds b) : d.closed = b.outline := by
  simp only [closed, DomainBacking.outline, h.zone.closed_eq, h.longTerm.closed_eq,
    h.shortTerm.closed_eq]

theorem PowerDomain.StandsOn.constraint {d : PowerDomain} {b : DomainBacking}
    (h : d.StandsOn ds b) (term : Term) : (d.constraint term).StandsOn ds (b.constraint term) := by
  cases term with
  | long => exact h.longTerm
  | short => exact h.shortTerm

theorem closed_eq_of_standOn {met : List (Domain × PowerDomain)} {table : DomainTable}
    (h : domainsStandOn ds met table) :
    (met.map fun d => (d.1, d.2.closed)) = table.map fun d => (d.1, d.2.outline) := by
  induction h with
  | nil => rfl
  | cons hd _ ih =>
    obtain ⟨hkey, hstands⟩ := hd
    rw [List.map_cons, List.map_cons, hkey, hstands.closed_eq, ih]

end Closed

/-! ## Handles -/

/-- What a handle stands on. -/
inductive HandleBacking where
  | controlType (name : String) (found : Option Backing)
  | zone (b : ZoneBacking)
  | constraint (b : ConstraintBacking)
  | package (id : UInt32) (table : DomainTable)

namespace HandleBacking

/-- The handle without its slots. -/
def outline : HandleBacking → Handle
  | .controlType name _ => .controlType ⟨name, .absent⟩
  | .zone b => .zone b.outline
  | .constraint b => .constraint b.outline
  | .package id table => .package ⟨id, table.map fun d => (d.1, d.2.outline)⟩

/-- What a slot of the handle stands on. -/
def slot : HandleBacking → SlotKey → Option Backing
  | .controlType _ found, .controlType => found
  | .zone b, .zone attr => (b.table.lookup attr).join
  | .constraint b, .constraint attr => (b.table.lookup attr).join
  | .package _ table, .domainZone k attr =>
    (table.lookup k).bind fun b => (b.zone.table.lookup attr).join
  | .package _ table, .domainConstraint k term attr =>
    (table.lookup k).bind fun b => ((b.constraint term).table.lookup attr).join
  | _, _ => none

end HandleBacking

/-- A handle has the outline of what it stands on, and each of its slots stands on
what was found for it. -/
structure Handle.StandsOn (ds : Descriptors) (h : Handle) (b : HandleBacking) : Prop where
  outline : h.closed = b.outline
  slot : ∀ key, (h.slot key).StandsOn ds (b.slot key)

/-- What the handle to be opened stands on. -/
def Opening.survey (t : Tree) : Opening → Survey HandleBacking
  | .controlType name readOnly => do
    let found ← t.surveySlot { controlType := name } (.controlType .enabled) !readOnly
    return .controlType name found
  | .zone a readOnly => do
    let table ← t.surveyZone a readOnly
    return .zone ⟨a.zones, table⟩
  | .constraint a number readOnly => do
    let table ← t.surveyConstraint a readOnly number
    return .constraint ⟨number, table⟩
  | .package id readOnly => do
    let table ← t.surveyPackage readOnly id
    return .package id table

namespace Handle

variable {ds ds' : Descriptors}

theorem standsOn_controlType {c : ControlType} {name : String} {found : Option Backing}
    (hname : c.name = name) (hslot : c.enabledSlot.StandsOn ds found) :
    (Handle.controlType c).StandsOn ds (.controlType name found) where
  outline := by
    subst hname
    rfl
  slot key := by
    cases key with
    | controlType => exact hslot
    | _ => exact .absent

theorem standsOn_zone {z : Zone} {b : ZoneBacking} (h : z.StandsOn ds b) :
    (Handle.zone z).StandsOn ds (.zone b) where
  outline := congrArg Handle.zone h.closed_eq
  slot key := by
    cases key with
    | zone attr => exact h.slots.slot attr
    | _ => exact .absent

theorem standsOn_constraint {c : Constraint} {b : ConstraintBacking} (h : c.StandsOn ds b) :
    (Handle.constraint c).StandsOn ds (.constraint b) where
  outline := congrArg Handle.constraint h.closed_eq
  slot key := by
    cases key with
    | constraint attr => exact h.slots.slot attr
    | _ => exact .absent

theorem standsOn_package {p : Package} {id : UInt32} {table : DomainTable} (hid : p.id = id)
    (hdomains : domainsStandOn ds p.domains table) :
    (Handle.package p).StandsOn ds (.package id table) where
  outline := by
    simp only [closed, Package.closed, HandleBacking.outline, hid, closed_eq_of_standOn hdomains]
  slot key := by
    -- a kind is found in the table just where the package has it
    have hrel (k : Domain) := Keyed.rel_lookup hdomains k
    cases key with
    | domainZone k attr =>
      have hk := hrel k
      simp only [slot, Package.zone, Package.domain, HandleBacking.slot]
      revert hk
      cases p.domains.lookup k <;> cases table.lookup k <;> intro hk <;> cases hk
      case none.none => exact .absent
      case some.some hk => exact hk.zone.slots.slot attr
    | domainConstraint k term attr =>
      have hk := hrel k
      simp only [slot, Package.constraint, Package.domain, HandleBacking.slot]
      revert hk
      cases p.domains.lookup k <;> cases table.lookup k <;> intro hk <;> cases hk
      case none.none => exact .absent
      case some.some hk => exact (hk.constraint term).slots.slot attr
    | _ => exact .absent

/-- A handle stands where it does as long as nobody closes its descriptors. -/
theorem StandsOn.of_find? {h : Handle} {b : HandleBacking} (hstands : h.StandsOn ds b)
    (hkept : ∀ id ∈ h.descriptors, ds'.find? id = ds.find? id) : h.StandsOn ds' b where
  outline := hstands.outline
  slot key := (hstands.slot key).of_find? fun id hid => hkept id (mem_descriptors hid)

end Handle

/-- To open a handle is to find what it stands on. -/
theorem Opening.realizes_act (t : Tree) (what : Opening) (host : Host) :
    (what.act t).Realizes host (what.survey t) Handle.StandsOn := by
  cases what with
  | controlType name readOnly =>
    simp only [act, survey, ← bind_pure_comp]
    refine (t.realizes_openControlType readOnly host name).bind fun c found _ _ _ hc => ?_
    exact realizes_pure (Handle.standsOn_controlType hc.1 hc.2)
  | zone a readOnly =>
    simp only [act, survey, ← bind_pure_comp]
    refine (t.realizes_openZone a readOnly host).bind fun z table _ _ _ hz => ?_
    exact realizes_pure (Handle.standsOn_zone ⟨hz.1, hz.2⟩)
  | constraint a number readOnly =>
    simp only [act, survey, ← bind_pure_comp]
    refine (t.realizes_openConstraint a readOnly host number).bind fun c table _ _ _ hc => ?_
    exact realizes_pure (Handle.standsOn_constraint ⟨hc.1, hc.2⟩)
  | package id readOnly =>
    simp only [act, survey, ← bind_pure_comp]
    refine (t.realizes_openPackage readOnly id host).bind fun p table _ _ _ hp => ?_
    exact realizes_pure (Handle.standsOn_package hp.1 hp.2)

/-! ## Answers -/

/-- What there is to read on a node, in some way. -/
def Reading.at (reading : Reading) (fs : FileSystem) (node : NodeId) : Except Failure Reply :=
  match reading with
  | .number => (fs.numberAt node).map Reply.number
  | .switch => (fs.numberAt node).map fun v => Reply.flag (switchedOn v)
  | .name => (fs.nameAt node).map Reply.text

namespace Slot.StandsOn

variable {slot : Slot} {found : Option Backing} {host : Host}

theorem run_answer (h : slot.StandsOn host.descriptors found) (reading : Reading) :
    (slot.answer reading).run host =
      ⟨found.elim (.error .unsupported) fun b => reading.at host.files b.node, host, []⟩ := by
  cases reading with
  | number =>
    simp only [Slot.answer, run_map, h.run_readNumber, Reading.at]
    cases found <;> rfl
  | switch =>
    simp only [Slot.answer, run_map, h.run_readNumber, Reading.at]
    cases found <;> rfl
  | name =>
    simp only [Slot.answer, run_map, h.run_readName, Reading.at]
    cases found <;> rfl

theorem isOpen_eq {ds : Descriptors} (h : slot.StandsOn ds found) : slot.isOpen = found.isSome := by
  cases h <;> rfl

end Slot.StandsOn

/-- What a call of a handle comes to. -/
def Handle.reply (h : Handle) (what : Call) (host : Host) : Except Failure Reply :=
  ((h.call what).run host).result.map Prod.fst

theorem Handle.reply_of_get? (h : Handle) {what : Call} {key : SlotKey} {reading : Reading}
    {host : Host} {found : Option Backing} (hget : what.get? = some (key, reading))
    (hslot : (h.slot key).StandsOn host.descriptors found) :
    h.reply what host = if h.takes key then
      found.elim (.error .unsupported) fun b => reading.at host.files b.node
    else .ok .noHandle := by
  simp only [reply, h.call_of_get? hget]
  cases h.takes key with
  | false => rfl
  | true =>
    simp only [if_pos, run_map, hslot.run_answer reading]
    cases found.elim (.error .unsupported) fun b => reading.at host.files b.node <;> rfl

/-- A call under a name is a call of the handle of that name. -/
theorem Session.result_step_call {s : Session} {name : String} {h : Handle}
    (hlook : s.handles.lookup name = some h) (what : Call) :
    (s.step (.call name what)).2.result = h.reply what s.host := by
  simp only [step, Request.act, hlook, run_bind, Handle.reply]
  rcases (h.call what).run s.host with ⟨_ | ⟨reply, after⟩, next, records⟩ <;> rfl

theorem Session.result_step_oneShot (s : Session) (o : OneShot) :
    (s.step (.oneShot o)).2.result = ((o.act s.tree).run s.host).result := by
  simp only [step, Request.act, run_bind]
  rcases (o.act s.tree).run s.host with ⟨_ | reply, next, records⟩ <;> rfl

end PowerZones
