import PowerZones.Proofs.Rapl.LessAccess
import PowerZones.Proofs.Session.Lifetime
import PowerZones.Proofs.Session.Survey

/-!
# Asking for less access never fails more

A handle that can be opened for writing too can be opened for reading only, and cannot
be told from the other by whoever only reads.

* **`Opening.reading`** is an opening for reading only, **`HandleBacking.reading`** what the
  handle stands on then, and **`Opening.survey_reading`** the comparison of the two;
* **`Handle.reply_of_closed`**: what is neither read nor set is known from the outline of
  the handle;
* **`Handle.StandsOn.reply_reading`**: handles that stand on the same nodes reply alike;
* **`less_access_never_fails_more`** puts them together.
-/

namespace PowerZones

open PowerZones.Action

/-- The same handle, to be opened for reading only. -/
def Opening.reading : Opening → Opening
  | .controlType name _ => .controlType name true
  | .zone a _ => .zone a true
  | .constraint a number _ => .constraint a number true
  | .package id _ => .package id true

namespace Slot

/-- The path that a slot is open at. -/
def path? : Slot → Option String
  | .absent => none
  | .opened _ path _ => some path

variable {slot : Slot} {ds : Descriptors} {found : Option Backing}

theorem StandsOn.path?_eq (h : slot.StandsOn ds found) : slot.path? = found.map Backing.path := by
  cases h <;> rfl

theorem StandsOn.grant?_eq (h : slot.StandsOn ds found) :
    slot.grant? = found.map Backing.grant := by
  cases h <;> rfl

end Slot

/-! ## Two surveys -/

namespace HandleBacking

/-- The same with every slot open for reading only. -/
def reading : HandleBacking → HandleBacking
  | .controlType name found => .controlType name (found.map Backing.reading)
  | .zone b => .zone b.reading
  | .constraint b => .constraint b.reading
  | .package id table => .package id table.reading

theorem outline_table {α : Type} (table : Table α) : table.reading.outline = table.outline := by
  simp only [Table.reading, Table.outline, List.map_map]
  rfl

theorem outline_reading (b : HandleBacking) : b.reading.outline = b.outline := by
  have hconstraint (c : ConstraintBacking) : c.reading.outline = c.outline := by
    simp only [ConstraintBacking.reading, ConstraintBacking.outline, outline_table]
  have hzone (z : ZoneBacking) : z.reading.outline = z.outline := by
    simp only [ZoneBacking.reading, ZoneBacking.outline, outline_table]
  have hdomain (d : DomainBacking) : d.reading.outline = d.outline := by
    simp only [DomainBacking.reading, DomainBacking.outline, hzone, hconstraint]
  cases b with
  | controlType name found => rfl
  | zone b => exact congrArg Handle.zone (hzone b)
  | constraint b => exact congrArg Handle.constraint (hconstraint b)
  | package id table =>
    simp only [reading, outline, DomainTable.reading, List.map_map, Function.comp_def, hdomain]

theorem slot_reading (b : HandleBacking) (key : SlotKey) :
    b.reading.slot key = (b.slot key).map Backing.reading := by
  cases b with
  | controlType name found => cases key <;> rfl
  | zone b =>
    cases key with
    | zone attr => exact b.table.lookup_reading attr
    | _ => rfl
  | constraint b =>
    cases key with
    | constraint attr => exact b.table.lookup_reading attr
    | _ => rfl
  | package id table =>
    have hlook (k : Domain) : table.reading.lookup k = (table.lookup k).map DomainBacking.reading :=
      Keyed.lookup_map DomainBacking.reading table k
    cases key with
    | domainZone k attr =>
      simp only [reading, slot, hlook]
      cases table.lookup k with
      | none => rfl
      | some d => exact d.zone.table.lookup_reading attr
    | domainConstraint k term attr =>
      simp only [reading, slot, hlook]
      cases table.lookup k with
      | none => rfl
      | some d => cases term <;> exact Table.lookup_reading _ attr
    | _ => rfl

end HandleBacking

/-- What is found for a handle is found for reading only as well. -/
theorem Opening.survey_reading {t : Tree} {what : Opening} {fs : FileSystem} {b : HandleBacking}
    (h : (what.survey t).result fs = .ok b) :
    (what.reading.survey t).result fs = .ok b.reading := by
  cases what with
  | controlType name readOnly =>
    obtain ⟨found, hfound, hpure⟩ := Survey.result_bind_eq_ok.mp h
    cases hpure
    exact Survey.result_bind_eq_ok.mpr ⟨_, Tree.surveySlot_reading hfound, rfl⟩
  | zone a readOnly =>
    obtain ⟨table, htable, hpure⟩ := Survey.result_bind_eq_ok.mp h
    cases hpure
    exact Survey.result_bind_eq_ok.mpr ⟨_, Tree.surveyZone_reading htable, rfl⟩
  | constraint a number readOnly =>
    obtain ⟨table, htable, hpure⟩ := Survey.result_bind_eq_ok.mp h
    cases hpure
    exact Survey.result_bind_eq_ok.mpr ⟨_, Tree.surveyConstraint_reading htable, rfl⟩
  | package id readOnly =>
    obtain ⟨table, htable, hpure⟩ := Survey.result_bind_eq_ok.mp h
    cases hpure
    exact Survey.result_bind_eq_ok.mpr ⟨_, Tree.surveyPackage_reading htable, rfl⟩

/-! ## Outlines -/

namespace Package

theorem domain_closed (p : Package) (k : Domain) :
    p.closed.domain k = (p.domain k).map PowerDomain.closed := by
  simp only [domain, closed, Keyed.lookup_map PowerDomain.closed]
  cases p.domains.lookup k <;> rfl

theorem constraintNumber_closed (p : Package) (k : Domain) (term : Term) :
    p.closed.constraintNumber k term = p.constraintNumber k term := by
  simp only [constraintNumber, constraint, domain_closed]
  cases p.domain k with
  | error e => rfl
  | ok d => cases term <;> rfl

theorem zones_closed (p : Package) (k : Domain) :
    (p.closed.zone k).map Zone.zones = (p.zone k).map Zone.zones := by
  simp only [zone, domain_closed]
  cases p.domain k <;> rfl

/-- Two packages have the same index and the same domains, and each domain has the same
path, and the same constraint for each term. -/
structure SameLayout (p p' : Package) : Prop where
  id : p'.id = p.id
  domainSet : p'.domainSet = p.domainSet
  zones : ∀ k, (p'.zone k).map Zone.zones = (p.zone k).map Zone.zones
  constraintNumber : ∀ k term, p'.constraintNumber k term = p.constraintNumber k term

theorem sameLayout_of_closed {p p' : Package} (h : p'.closed = p.closed) : p.SameLayout p' where
  id := by
    show p'.closed.id = p.closed.id
    rw [h]
  domainSet := by rw [← p'.domainSet_closed, h, p.domainSet_closed]
  zones k := by rw [← p'.zones_closed, h, p.zones_closed]
  constraintNumber k term := by rw [← p'.constraintNumber_closed, h, p.constraintNumber_closed]

end Package

/-! ## Replies -/

namespace Handle

variable {h h' : Handle} {what : Call} {host host' : Host}

/-- What a call comes to that is about no slot is known from the outline of the handle,
unless it reports all slots. -/
theorem reply_of_closed (hplain : what.Plain) (hreport : what ≠ .report) :
    h.reply what host = h.closed.reply what host' := by
  have hclosing (hd : Handle) (host : Host) : hd.reply .close host = .ok .done := by
    simp only [reply, call, run_bind, hd.run_close, run_pure]
    rfl
  cases hplain with
  | close => rw [hclosing, hclosing]
  | report => exact absurd rfl hreport
  | name => cases h <;> rfl
  | id => cases h <;> rfl
  | domainSet =>
    cases h with
    | package p =>
      simp only [reply, closed, Handle.call, PackageCall.act, p.domainSet_closed, run_bind,
        run_pure]
      rfl
    | _ => rfl
  | constraintNumber k term =>
    cases h with
    | package p =>
      simp only [reply, closed, Handle.call, PackageCall.act, p.constraintNumber_closed, run_bind,
        run_map, run_ofExcept]
      cases p.constraintNumber k term <;> rfl
    | _ => rfl

/-- Whoever does not write cannot tell a handle from the one for reading only. -/
theorem StandsOn.reply_reading {b : HandleBacking} (hstands : h.StandsOn host.descriptors b)
    (hstands' : h'.StandsOn host'.descriptors b.reading) (hfiles : host'.files = host.files)
    (hset : what.set? = none) (hreport : what ≠ .report) :
    h'.reply what host' = h.reply what host := by
  have hclosed : h'.closed = h.closed := by
    rw [hstands.outline, hstands'.outline, b.outline_reading]
  have htakes (key : SlotKey) : h'.takes key = h.takes key := by
    rw [← h'.takes_closed, hclosed, h.takes_closed]
  have hslot (key : SlotKey) :
      (h'.slot key).StandsOn host'.descriptors ((b.slot key).map Backing.reading) := by
    rw [← b.slot_reading]
    exact hstands'.slot key
  rcases what.kinds with ⟨key, v, hset'⟩ | ⟨key, reading, hget⟩ | ⟨key, hsupports⟩ | hplain
  · rw [hset] at hset'
    cases hset'
  · rw [h'.reply_of_get? hget (hslot key), h.reply_of_get? hget (hstands.slot key), htakes, hfiles]
    cases b.slot key <;> rfl
  · have hopen : (h'.slot key).isOpen = (h.slot key).isOpen := by
      rw [(hslot key).isOpen_eq, (hstands.slot key).isOpen_eq, Option.isSome_map]
    simp only [reply, h.call_of_supports? hsupports, h'.call_of_supports? hsupports, htakes,
      hopen, run_pure]
    rfl
  · calc h'.reply what host'
        = h'.closed.reply what host := reply_of_closed hplain hreport
      _ = h.closed.reply what host := by rw [hclosed]
      _ = h.reply what host := (reply_of_closed hplain hreport).symm

end Handle

/-- **Asking for less access never fails more.** If a handle can be opened, then it can
be opened for reading only on the same files, whatever else is open. It has the same
outline then, and a package has the same layout; the same slots are open, at the same
paths, all of them for reading as it was asked. From then on, as long as the descriptors
of both are left to them and the files are the same for both, whatever has become of
these, every call that neither sets anything nor shows descriptors comes to the same. -/
theorem less_access_never_fails_more (t : Tree) (what : Opening) (host host' : Host) (h : Handle)
    (hfiles : host'.files = host.files) (hopen : ((what.act t).run host).result = .ok h) :
    let opened := ((what.act t).run host).host.descriptors
    let opened' := ((what.reading.act t).run host').host.descriptors
    ∃ h', ((what.reading.act t).run host').result = .ok h' ∧ h'.closed = h.closed ∧
      (∀ p, h = .package p → ∃ p', h' = .package p' ∧ p.SameLayout p') ∧
      (∀ key, (h'.slot key).path? = (h.slot key).path?) ∧
      (∀ key grant, (h'.slot key).grant? = some grant → grant = .readOnly) ∧
      ∀ later later' : Host, later'.files = later.files →
        (∀ id ∈ h.descriptors, later.descriptors.find? id = opened.find? id) →
        (∀ id ∈ h'.descriptors, later'.descriptors.find? id = opened'.find? id) →
        ∀ call : Call, call.set? = none → call ≠ .report →
          h'.reply call later' = h.reply call later := by
  intro opened opened'
  obtain ⟨b, hb, hstands⟩ := (what.realizes_act t host).of_ok hopen
  have hb' : (what.reading.survey t).result host'.files = .ok b.reading := by
    rw [hfiles]
    exact Opening.survey_reading hb
  have hrealizes := what.reading.realizes_act t host'
  obtain ⟨h', hopen'⟩ := hrealizes.exists_ok_iff.mpr ⟨_, hb'⟩
  obtain ⟨b', hsurvey, hstands'⟩ := hrealizes.of_ok hopen'
  obtain rfl : b.reading = b' := Except.ok.inj (hb'.symm.trans hsurvey)
  have hclosed : h'.closed = h.closed := by
    rw [hstands.outline, hstands'.outline, b.outline_reading]
  refine ⟨h', hopen', hclosed, ?_, ?_, ?_, ?_⟩
  · rintro p rfl
    cases h' with
    | package p' => exact ⟨p', rfl, Package.sameLayout_of_closed (Handle.package.inj hclosed)⟩
    | _ => cases hclosed
  · intro key
    rw [(hstands'.slot key).path?_eq, (hstands.slot key).path?_eq, b.slot_reading, Option.map_map]
    rfl
  · intro key grant hgrant
    rw [(hstands'.slot key).grant?_eq, b.slot_reading, Option.map_map] at hgrant
    obtain ⟨found, -, rfl⟩ := Option.map_eq_some_iff.mp hgrant
    rfl
  · intro later later' hsame hkept hkept' call hset hreport
    exact (hstands.of_find? hkept).reply_reading (hstands'.of_find? hkept') hsame hset hreport

/-- A file system with one zone, whose energy counter nobody may write. -/
def lockedEnergy : FileSystem where
  nodes :=
    let all : Permissions := ⟨true, true, true⟩
    #[.directory ((Directory.empty all 0).insert (.text "powercap") 1 (.refl true)),
      .directory ((Directory.empty all 0).insert (.text "dtpm") 2 (.refl true)),
      .directory ((Directory.empty all 1).insert (.text "dtpm:0") 3 (.refl true)),
      .directory ((Directory.empty all 2).insert (.text "energy_uj") 4 (.refl true)),
      .file ⟨true, false, true⟩ [0x37, 0x0A]]
  top := 0
  current := 0

/-- Opened for writing too, the energy counter that nobody may write falls back to
reading; opened for reading only, it does not need to. -/
theorem less_access_lockedEnergy :
    let path := "/powercap/dtpm/dtpm:0/energy_uj"
    let opened := ((Opening.zone { controlType := "dtpm", zones := [0] } false).act
      { root := "/powercap" }).run (.ofFiles lockedEnergy)
    let opened' := ((Opening.zone { controlType := "dtpm", zones := [0] } true).act
      { root := "/powercap" }).run (.ofFiles lockedEnergy)
    ∃ h h', opened.result = .ok h ∧ opened'.result = .ok h' ∧
      h.slot (.zone .energy) = .opened 0 path .readOnlyFallback ∧
      (h'.slot (.zone .energy)).path? = some path ∧
      (h'.slot (.zone .energy)).grant? ≠ some .readOnlyFallback ∧
      h'.reply (.zone .energy) opened'.host = h.reply (.zone .energy) opened.host := by
  intro path opened opened'
  have hopen : ∃ h, opened.result = .ok h ∧
      h.slot (.zone .energy) = .opened 0 path .readOnlyFallback := ⟨_, rfl, rfl⟩
  obtain ⟨h, hopen, hslot⟩ := hopen
  obtain ⟨h', hopen', -, -, hpath, hgrant, hreply⟩ :=
    less_access_never_fails_more { root := "/powercap" }
      (.zone { controlType := "dtpm", zones := [0] } false) (.ofFiles lockedEnergy)
      (.ofFiles lockedEnergy) h rfl hopen
  have hfiles (what : Opening) :
      ((what.act { root := "/powercap" }).run (.ofFiles lockedEnergy)).host.files = lockedEnergy :=
    (what.realizes_act _ _).files
  refine ⟨h, h', hopen, hopen', hslot, ?_, ?_, ?_⟩
  · rw [hpath, hslot]
    rfl
  · intro hfallback
    cases hgrant _ _ hfallback
  · refine hreply _ _ ?_ (fun _ _ => rfl) (fun _ _ => rfl) _ rfl nofun
    exact (hfiles _).trans (hfiles _).symm

end PowerZones
