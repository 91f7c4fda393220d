import PowerZones.Proofs.Entity.Agreement
import PowerZones.Proofs.Rapl.Discovery
import PowerZones.Proofs.Session.Setters

/-!
# Where slots come from

An open slot of a handle stands for one attribute at one address, and its
descriptor is open on the node that the path of that attribute led to when the
handle was opened.

* **`Opening.Place`** tells, given what was opened, which attribute at which address
  a slot of the handle stands for;
* **`Slot.OpenedAt`** ties a slot to its place, and to the file system in which it
  was opened; it is open for writing only if that was asked for and the attribute
  may be written;
* **`Opening.openedAs`**: all slots of a handle that was just opened are so tied.

The tie only depends on the descriptors of the handle, so it stays as long as
nobody closes them.
-/

namespace PowerZones

open PowerZones.Action

/-- Whether a handle is opened for reading only. -/
def Opening.readOnly : Opening → Bool
  | .controlType _ readOnly | .zone _ readOnly | .constraint _ _ readOnly
  | .package _ readOnly => readOnly

/-- The attribute at an address that a slot stands for. The zones of a package
are at addresses that begin with the index of the package. -/
inductive Opening.Place : Opening → Handle → SlotKey → Address → Attribute → Prop
  | controlType {name : String} {readOnly : Bool} {c : ControlType} :
    Place (.controlType name readOnly) (.controlType c) .controlType
      { controlType := name } (.controlType .enabled)
  | zone {a : Address} {readOnly : Bool} {z : Zone} {attr : ZoneAttribute} :
    Place (.zone a readOnly) (.zone z) (.zone attr) a (.zone attr)
  | constraint {a : Address} {number : UInt32} {readOnly : Bool} {c : Constraint}
      {attr : ConstraintAttribute} :
    Place (.constraint a number readOnly) (.constraint c) (.constraint attr)
      a (.constraint number attr)
  | domainZone {id : UInt32} {readOnly : Bool} {p : Package} {k : Domain} {z : Zone}
      {attr : ZoneAttribute} :
    p.zone k = .ok z → z.zones.head? = some id →
    Place (.package id readOnly) (.package p) (.domainZone k attr)
      (raplAddress z.zones) (.zone attr)
  | domainConstraint {id : UInt32} {readOnly : Bool} {p : Package} {k : Domain} {z : Zone}
      {term : Term} {c : Constraint} {attr : ConstraintAttribute} :
    p.zone k = .ok z → z.zones.head? = some id → p.constraint k term = .ok c →
    Place (.package id readOnly) (.package p) (.domainConstraint k term attr)
      (raplAddress z.zones) (.constraint c.number attr)

/-- If a slot is open, it is so on the node that the path of its place led to in
a file system. -/
inductive Slot.OpenedAt (t : Tree) (fs : FileSystem) (ds : Descriptors) (readOnly : Bool)
    (place : Address → Attribute → Prop) : Slot → Prop
  | absent : OpenedAt t fs ds readOnly place .absent
  | opened {a : Address} {attr : Attribute} {id : DescriptorId} {path : String} {grant : Grant}
      {n : NodeId} :
    place a attr → t.attributePath a attr = .ok path → fs.access path grant.access = .ok n →
    ds.find? id = some ⟨n, grant.access⟩ →
    (grant = .readWrite → readOnly = false ∧ attr.writable = true) →
    OpenedAt t fs ds readOnly place (.opened id path grant)

/-- All open slots of a handle are where they were opened. -/
def Handle.OpenedAs (t : Tree) (fs : FileSystem) (ds : Descriptors) (what : Opening)
    (h : Handle) : Prop :=
  ∀ key, (h.slot key).OpenedAt t fs ds what.readOnly (what.Place h key)

/-! ## Verdicts -/

/-- What is granted is granted for the access it was asked for, and only what was
asked to be written is granted for writing. -/
theorem FileSystem.access_grant_of_judge {fs : FileSystem} {path : String} {write fallback : Bool}
    {node : NodeId} {access : Access} {grant : Grant}
    (h : fs.judge path write fallback = .granted node access grant) :
    fs.access path grant.access = .ok node ∧ (grant = .readWrite → write = true) := by
  unfold judge at h
  split at h
  case h_1 found hfound =>
    cases write with
    | true => cases h; exact ⟨hfound, fun _ => rfl⟩
    | false => cases h; exact ⟨hfound, nofun⟩
  case h_2 => cases h
  case h_3 =>
    split at h
    · split at h
      case h_1 hread => cases h; exact ⟨hread, nofun⟩
      case h_2 => cases h
    · cases h

section Opened

variable {t : Tree} {fs : FileSystem} {ds ds' : Descriptors} {readOnly : Bool}

/-- What a survey finds for a slot, it finds at the path of the attribute. -/
theorem Tree.surveySlot_eq_some {a : Address} {attr : Attribute} {write : Bool} {b : Backing}
    (h : (t.surveySlot a attr write).result fs = .ok (some b)) :
    t.attributePath a attr = .ok b.path ∧ fs.access b.path b.grant.access = .ok b.node ∧
      (b.grant = .readWrite → write = true) := by
  obtain ⟨path, hpath, h⟩ := Survey.result_bind_eq_ok.mp h
  obtain ⟨verdict, hverdict, h⟩ := Survey.result_bind_eq_ok.mp h
  have hjudge : fs.judge path write attr.fallsBack = verdict := Except.ok.inj hverdict
  cases verdict with
  | missing =>
    obtain ⟨_, _, hpure⟩ := Survey.result_bind_eq_ok.mp h
    cases hpure
  | granted node access grant =>
    cases h
    exact ⟨hpath, FileSystem.access_grant_of_judge hjudge⟩
  | refused retried why =>
    obtain ⟨_, _, hfail⟩ := Survey.result_bind_eq_ok.mp h
    cases hfail

/-! ## Slots and tables -/

namespace Slot

variable {slot : Slot} {place : Address → Attribute → Prop}

theorem StandsOn.openedAt {a : Address} {attr : Attribute} {write : Bool} {found : Option Backing}
    (hslot : slot.StandsOn ds found)
    (h : (t.surveySlot a attr write).result fs = .ok found)
    (hwrite : write = true → readOnly = false ∧ attr.writable = true)
    (hplace : place a attr) : slot.OpenedAt t fs ds readOnly place := by
  cases hslot with
  | absent => exact .absent
  | opened hid =>
    obtain ⟨hpath, hnode, hgrant⟩ := Tree.surveySlot_eq_some h
    exact .opened hplace hpath hnode hid fun heq => hwrite (hgrant heq)

/-- A slot stays where it was opened as long as its descriptor stays. -/
theorem OpenedAt.of_find? (h : slot.OpenedAt t fs ds readOnly place)
    (hkept : ∀ id ∈ slot.descriptor?, ∀ file, ds.find? id = some file → ds'.find? id = some file) :
    slot.OpenedAt t fs ds' readOnly place := by
  cases h with
  | absent => exact .absent
  | opened hplace hpath hnode hid hgrant =>
    exact .opened hplace hpath hnode (hkept _ rfl _ hid) hgrant

end Slot

/-- Each slot of a table is where its attribute is. -/
theorem Slots.StandOn.openedAt {α : Type} [Vocabulary α] [DecidableEq α] {a : Address}
    {slots : Slots α} {table : Table α} {place : Address → Attribute → Prop}
    (hslots : slots.StandOn ds table) (of : α → Attribute)
    (h : (Survey.table (fun x => t.surveySlot a (of x) (!readOnly && (of x).writable))
      Vocabulary.members).result fs = .ok table) (x : α) (hplace : place a (of x)) :
    (slots.slot x).OpenedAt t fs ds readOnly place := by
  obtain ⟨found, hfound, hlook⟩ := Survey.lookup_table h (Vocabulary.complete x)
  have hslot := hslots.slot x
  rw [hlook] at hslot
  refine Slot.StandsOn.openedAt hslot hfound (fun hwrite => ?_) hplace
  simpa using hwrite

/-! ## Domains -/

/-- What the parts of a power domain stand on was surveyed at the address of the
zone, whatever the order of the constraints. -/
structure DomainBacking.SurveyedAt (t : Tree) (readOnly : Bool) (fs : FileSystem)
    (zones : List UInt32) (b : DomainBacking) : Prop where
  path : b.zone.zones = zones
  zone : (t.surveyZone (raplAddress zones) readOnly).result fs = .ok b.zone.table
  longTerm : (t.surveyConstraint (raplAddress zones) readOnly b.longTerm.number).result fs =
    .ok b.longTerm.table
  shortTerm : (t.surveyConstraint (raplAddress zones) readOnly b.shortTerm.number).result fs =
    .ok b.shortTerm.table

theorem Tree.surveyedAt_of_surveyDomain {zones : List UInt32} {b : DomainBacking}
    (h : (t.surveyDomain readOnly zones).result fs = .ok b) :
    b.SurveyedAt t readOnly fs zones := by
  obtain ⟨zone, hzone, h⟩ := Survey.result_bind_eq_ok.mp h
  obtain ⟨longTerm, hlong, h⟩ := Survey.result_bind_eq_ok.mp h
  obtain ⟨shortTerm, hshort, h⟩ := Survey.result_bind_eq_ok.mp h
  obtain ⟨_, _, h⟩ := Survey.result_bind_eq_ok.mp h
  obtain ⟨_, _, h⟩ := Survey.result_bind_eq_ok.mp h
  -- each constraint takes its number along when the two change places
  split at h
  · obtain ⟨_, _, hpure⟩ := Survey.result_bind_eq_ok.mp h
    cases hpure
    constructor
    case path => rfl
    case zone => exact hzone
    case longTerm =>
      dsimp only [DomainBacking.swap]
      exact hshort
    case shortTerm =>
      dsimp only [DomainBacking.swap]
      exact hlong
  · cases h
    constructor
    case path => rfl
    case zone => exact hzone
    case longTerm =>
      dsimp only
      exact hlong
    case shortTerm =>
      dsimp only
      exact hshort

/-- The domain of a package under a kind stands on what was found at a path that
begins with the index of the package. -/
theorem Package.exists_surveyedAt {id : UInt32} {p : Package} {table : DomainTable}
    (hdomains : domainsStandOn ds p.domains table)
    (h : (t.surveyPackage readOnly id).result fs = .ok table) {k : Domain} {d : PowerDomain}
    (hlook : p.domains.lookup k = some d) :
    ∃ zones b, zones.head? = some id ∧ d.StandsOn ds b ∧ b.SurveyedAt t readOnly fs zones := by
  obtain ⟨count, -, hfound, -⟩ := Tree.surveyPackage_eq_ok.mp h
  obtain ⟨⟨k', b⟩, hb, -, hstands⟩ := partner_of_mem hdomains (Keyed.mem_of_lookup hlook)
  obtain ⟨zones, hzones, hzone⟩ := partner_of_mem hfound.flip hb
  refine ⟨zones, b, ?_, hstands, Tree.surveyedAt_of_surveyDomain hzone.domain⟩
  unfold packagePaths at hzones
  rcases List.mem_cons.mp hzones with rfl | hmem
  · rfl
  · obtain ⟨index, -, rfl⟩ := List.mem_map.mp hmem
    rfl

theorem Package.parts_of_lookup {p : Package} {k : Domain} {d : PowerDomain}
    (hlook : p.domains.lookup k = some d) :
    p.zone k = .ok d.zone ∧ ∀ term, p.constraint k term = .ok (d.constraint term) := by
  simp only [zone, constraint, domain, hlook, Except.map, implies_true, and_self]

theorem Package.slot_openedAt {id : UInt32} {p : Package} {table : DomainTable}
    (hdomains : domainsStandOn ds p.domains table)
    (h : (t.surveyPackage readOnly id).result fs = .ok table) (key : SlotKey) :
    ((Handle.package p).slot key).OpenedAt t fs ds readOnly
      ((Opening.package id readOnly).Place (.package p) key) := by
  cases key with
  | domainZone k attr =>
    cases hlook : p.domains.lookup k with
    | none =>
      simp only [Handle.slot, zone, domain, hlook, Except.map]
      exact .absent
    | some d =>
      obtain ⟨zones, b, hhead, hstands, hsurveyed⟩ := exists_surveyedAt hdomains h hlook
      have hzones : d.zone.zones = zones := hstands.zone.zones.trans hsurveyed.path
      subst hzones
      have hzone := (parts_of_lookup hlook).1
      simp only [Handle.slot, hzone]
      exact hstands.zone.slots.openedAt .zone hsurveyed.zone attr (.domainZone hzone hhead)
  | domainConstraint k term attr =>
    cases hlook : p.domains.lookup k with
    | none =>
      simp only [Handle.slot, constraint, domain, hlook, Except.map]
      exact .absent
    | some d =>
      obtain ⟨zones, b, hhead, hstands, hsurveyed⟩ := exists_surveyedAt hdomains h hlook
      have hzones : d.zone.zones = zones := hstands.zone.zones.trans hsurveyed.path
      subst hzones
      obtain ⟨hzone, hconstraints⟩ := parts_of_lookup hlook
      have hconstraint := hconstraints term
      simp only [Handle.slot, hconstraint]
      have hplace : (Opening.package id readOnly).Place (.package p) (.domainConstraint k term attr)
          (raplAddress d.zone.zones) (.constraint (d.constraint term).number attr) :=
        .domainConstraint hzone hhead hconstraint
      cases term with
      | long =>
        have htable := hsurveyed.longTerm
        rw [← hstands.longTerm.number] at htable
        exact hstands.longTerm.slots.openedAt (.constraint _) htable attr hplace
      | short =>
        have htable := hsurveyed.shortTerm
        rw [← hstands.shortTerm.number] at htable
        exact hstands.shortTerm.slots.openedAt (.constraint _) htable attr hplace
  | _ => exact .absent

end Opened

/-! ## Handles -/

theorem Package.mem_descriptors {p : Package} {k : Domain} {d : PowerDomain} {id : DescriptorId}
    (hlook : p.domains.lookup k = some d) (hid : id ∈ d.descriptors) : id ∈ p.descriptors :=
  List.mem_flatMap.mpr ⟨(k, d), Keyed.mem_of_lookup hlook, hid⟩

namespace Handle

variable {t : Tree} {fs : FileSystem} {ds ds' : Descriptors} {what : Opening} {h : Handle}

/-- An open slot keeps one of the descriptors of its handle. -/
theorem mem_descriptors {key : SlotKey} {id : DescriptorId}
    (hid : id ∈ (h.slot key).descriptor?) : id ∈ h.descriptors := by
  cases h with
  | controlType c =>
    cases key with
    | controlType => exact Option.mem_toList.mpr hid
    | _ => cases hid
  | zone z =>
    cases key with
    | zone attr => exact Slots.mem_descriptors hid
    | _ => cases hid
  | constraint c =>
    cases key with
    | constraint attr => exact Slots.mem_descriptors hid
    | _ => cases hid
  | package p =>
    cases key with
    | domainZone k attr =>
      cases hlook : p.domains.lookup k with
      | none => simp [slot, Package.zone, Package.domain, hlook, Except.map, Slot.descriptor?] at hid
      | some d =>
        simp only [slot, (Package.parts_of_lookup hlook).1] at hid
        have hmem : id ∈ d.zone.descriptors := Slots.mem_descriptors hid
        exact Package.mem_descriptors hlook (by simp [PowerDomain.descriptors, hmem])
    | domainConstraint k term attr =>
      cases hlook : p.domains.lookup k with
      | none =>
        simp [slot, Package.constraint, Package.domain, hlook, Except.map, Slot.descriptor?] at hid
      | some d =>
        simp only [slot, (Package.parts_of_lookup hlook).2] at hid
        have hmem : id ∈ (d.constraint term).descriptors := Slots.mem_descriptors hid
        refine Package.mem_descriptors hlook ?_
        cases term with
        | long => simp [PowerDomain.descriptors, show id ∈ d.longTerm.descriptors from hmem]
        | short => simp [PowerDomain.descriptors, show id ∈ d.shortTerm.descriptors from hmem]
    | _ => cases hid

/-- The slots of a handle stay where they were opened as long as nobody closes
its descriptors. -/
theorem OpenedAs.of_find? (hopened : h.OpenedAs t fs ds what)
    (hkept : ∀ id ∈ h.descriptors, ∀ file, ds.find? id = some file → ds'.find? id = some file) :
    h.OpenedAs t fs ds' what :=
  fun key => (hopened key).of_find? fun id hid => hkept id (mem_descriptors hid)

@[simp] theorem slot_closed (h : Handle) (key : SlotKey) : h.closed.slot key = .absent := by
  cases hslot : h.closed.slot key with
  | absent => rfl
  | opened id path grant =>
    have hmem : id ∈ h.closed.descriptors := mem_descriptors (by rw [hslot]; rfl)
    rw [h.descriptors_closed] at hmem
    cases hmem

theorem openedAs_closed (h : Handle) : h.closed.OpenedAs t fs ds what := by
  intro key
  rw [slot_closed]
  exact .absent

end Handle

namespace Opening

variable {t : Tree} {host : Host} {h : Handle}

/-- A handle just opened is open where it was asked to be. -/
theorem openedAs {what : Opening} (hopen : ((what.act t).run host).result = .ok h) :
    h.OpenedAs t host.files ((what.act t).run host).host.descriptors what := by
  -- what realizes a survey still does so with its result made a handle
  have hhandle {α β : Type} {a : Action α} {s : Survey β} {R : Descriptors → α → β → Prop}
      {wrap : α → Handle} (ha : a.Realizes host s R)
      (hresult : ((wrap <$> a).run host).result = .ok h) :
      ∃ x y, h = wrap x ∧ s.result host.files = .ok y ∧
        R ((wrap <$> a).run host).host.descriptors x y := by
    have hmap : (wrap <$> a).Realizes host s fun ds h y => ∃ x, h = wrap x ∧ R ds x y := by
      rw [← bind_pure_comp]
      exact ha.returns fun ds x y hR => ⟨x, rfl, hR⟩
    obtain ⟨y, hy, x, hx, hR⟩ := hmap.of_ok hresult
    exact ⟨x, y, hx, hy, hR⟩
  intro key
  cases what with
  | controlType name readOnly =>
    obtain ⟨c, found, rfl, hfound, -, hslot⟩ :=
      hhandle (t.realizes_openControlType readOnly host name) hopen
    cases key with
    | controlType =>
      refine hslot.openedAt hfound (fun hwrite => ⟨?_, rfl⟩) .controlType
      show readOnly = false
      simpa using hwrite
    | _ => exact .absent
  | zone a readOnly =>
    obtain ⟨z, table, rfl, htable, -, hslots⟩ :=
      hhandle (t.realizes_openZone a readOnly host) hopen
    cases key with
    | zone attr => exact hslots.openedAt .zone htable attr .zone
    | _ => exact .absent
  | constraint a number readOnly =>
    obtain ⟨c, table, rfl, htable, -, hslots⟩ :=
      hhandle (t.realizes_openConstraint a readOnly host number) hopen
    cases key with
    | constraint attr => exact hslots.openedAt (.constraint number) htable attr .constraint
    | _ => exact .absent
  | package id readOnly =>
    obtain ⟨p, table, rfl, htable, -, hdomains⟩ :=
      hhandle (t.realizes_openPackage readOnly id host) hopen
    exact Package.slot_openedAt hdomains htable key

end Opening

end PowerZones
