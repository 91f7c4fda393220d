import PowerZones.Proofs.Entity.Agreement
import PowerZones.Proofs.Rapl.Discovery

/-!
# Surveys for less access

Whatever is found when a handle is opened for writing too is also found when it is
opened for reading only. A survey for reading only finds the same nodes at the same
paths, so it comes to the same order of constraints and to the same domains.

* **`Backing.reading`** is what a slot stands on when it is opened for reading only;
  tables, zones, constraints, domains and packages follow part by part;
* **`FileSystem.judge_reading`** is the only place where access matters;
* **`Tree.surveyZone_reading`**, **`Tree.surveyConstraint_reading`**,
  **`Tree.surveyDomain_reading`**, **`Tree.surveyPackage_reading`** carry it up.
-/

namespace PowerZones

open PowerZones.Action

/-! ## Backings -/

/-- The same node at the same path, granted for reading as it was asked. -/
def Backing.reading (b : Backing) : Backing :=
  { b with grant := .readOnly }

/-- The same table with every slot open for reading only. -/
def Table.reading {α : Type} (table : Table α) : Table α :=
  table.map fun s => (s.1, s.2.map Backing.reading)

def ConstraintBacking.reading (b : ConstraintBacking) : ConstraintBacking :=
  { b with table := b.table.reading }

def ZoneBacking.reading (b : ZoneBacking) : ZoneBacking :=
  { b with table := b.table.reading }

def DomainBacking.reading (b : DomainBacking) : DomainBacking where
  zone := b.zone.reading
  longTerm := b.longTerm.reading
  shortTerm := b.shortTerm.reading

/-- The same domains with every slot open for reading only. -/
def DomainTable.reading (table : DomainTable) : DomainTable :=
  table.map fun d => (d.1, d.2.reading)

theorem Table.lookup_reading {α : Type} [DecidableEq α] (table : Table α) (a : α) :
    (table.reading.lookup a).join = (table.lookup a).join.map Backing.reading := by
  rw [reading, Keyed.lookup_map]
  cases table.lookup a <;> rfl

@[simp] theorem DomainTable.keys_reading (table : DomainTable) :
    table.reading.map Prod.fst = table.map Prod.fst := by
  simp only [reading, List.map_map]
  rfl

/-! ## Slots -/

/-- Whoever may open a path in some way may open it for reading, and whoever finds
nothing there finds nothing to read either. -/
theorem FileSystem.judge_reading (fs : FileSystem) (path : String) (write fallback : Bool) :
    (∀ node access grant, fs.judge path write fallback = .granted node access grant →
      fs.judge path false fallback = .granted node .read .readOnly) ∧
    (fs.judge path write fallback = .missing → fs.judge path false fallback = .missing) := by
  constructor
  · intro node access grant h
    have hread := (access_of_judge_granted h).1
    simp [judge, hread]
  · intro h
    have hnone := access_of_judge_missing h
    simp [judge, hnone]

namespace Tree

variable {t : Tree} {fs : FileSystem} {readOnly : Bool}

theorem surveySlot_reading {a : Address} {attr : Attribute} {write : Bool} {found : Option Backing}
    (h : (t.surveySlot a attr write).result fs = .ok found) :
    (t.surveySlot a attr false).result fs = .ok (found.map Backing.reading) := by
  obtain ⟨path, hpath, h⟩ := Survey.result_bind_eq_ok.mp h
  obtain ⟨verdict, hverdict, h⟩ := Survey.result_bind_eq_ok.mp h
  have hjudge : fs.judge path write attr.fallsBack = verdict := Except.ok.inj hverdict
  obtain ⟨hgranted, hmissing⟩ := fs.judge_reading path write attr.fallsBack
  refine Survey.result_bind_eq_ok.mpr ⟨path, hpath, ?_⟩
  cases verdict with
  | granted node access grant =>
    cases h
    exact Survey.result_bind_eq_ok.mpr ⟨_, congrArg Except.ok (hgranted _ _ _ hjudge), rfl⟩
  | missing =>
    obtain ⟨_, _, hpure⟩ := Survey.result_bind_eq_ok.mp h
    cases hpure
    exact Survey.result_bind_eq_ok.mpr ⟨_, congrArg Except.ok (hmissing hjudge), rfl⟩
  | refused retried why =>
    obtain ⟨_, _, hfail⟩ := Survey.result_bind_eq_ok.mp h
    cases hfail

/-! ## Tables -/

/-- What is found slot by slot is found table by table. -/
theorem table_reading {α : Type} {surveyOne surveyLess : α → Survey (Option Backing)}
    (hone : ∀ a found, (surveyOne a).result fs = .ok found →
      (surveyLess a).result fs = .ok (found.map Backing.reading)) {as : List α} {table : Table α}
    (h : (Survey.table surveyOne as).result fs = .ok table) :
    (Survey.table surveyLess as).result fs = .ok table.reading := by
  induction as generalizing table with
  | nil => cases h; rfl
  | cons a rest ih =>
    obtain ⟨found, hfound, h⟩ := Survey.result_bind_eq_ok.mp h
    obtain ⟨others, hothers, hpure⟩ := Survey.result_bind_eq_ok.mp h
    cases hpure
    refine Survey.result_bind_eq_ok.mpr ⟨_, hone a found hfound, ?_⟩
    exact Survey.result_bind_eq_ok.mpr ⟨_, ih hothers, rfl⟩

theorem surveyZone_reading {a : Address} {table : Table ZoneAttribute}
    (h : (t.surveyZone a readOnly).result fs = .ok table) :
    (t.surveyZone a true).result fs = .ok table.reading :=
  table_reading (fun _ _ hfound => surveySlot_reading hfound) h

theorem surveyConstraint_reading {a : Address} {number : UInt32} {table : Table ConstraintAttribute}
    (h : (t.surveyConstraint a readOnly number).result fs = .ok table) :
    (t.surveyConstraint a true number).result fs = .ok table.reading :=
  table_reading (fun _ _ hfound => surveySlot_reading hfound) h

end Tree

/-! ## Domains -/

/-- The name of a constraint is read from the same node. -/
@[simp] theorem ConstraintBacking.misnamed_reading (b : ConstraintBacking) (term : Term)
    (fs : FileSystem) : b.reading.misnamed term fs = b.misnamed term fs := by
  have hname : b.reading.name fs = b.name fs := by
    simp only [name, reading, Table.lookup_reading]
    cases (b.table.lookup .name).join <;> rfl
  simp only [misnamed, hname]

/-- Constraints are the other way round for whoever opens them. -/
theorem DomainBacking.order_reading {logger : Logger} {a : Address} {b found : DomainBacking}
    {fs : FileSystem} (h : (b.order logger a).result fs = .ok found) :
    (b.reading.order logger a).result fs = .ok found.reading := by
  obtain ⟨long, hlong, h⟩ := Survey.result_bind_eq_ok.mp h
  obtain ⟨short, hshort, h⟩ := Survey.result_bind_eq_ok.mp h
  have hlong' : b.reading.longTerm.misnamed .long fs = long := by
    rw [← Except.ok.inj hlong]
    exact b.longTerm.misnamed_reading .long fs
  have hshort' : b.reading.shortTerm.misnamed .short fs = short := by
    rw [← Except.ok.inj hshort]
    exact b.shortTerm.misnamed_reading .short fs
  refine Survey.result_bind_eq_ok.mpr ⟨long, congrArg Except.ok hlong', ?_⟩
  refine Survey.result_bind_eq_ok.mpr ⟨short, congrArg Except.ok hshort', ?_⟩
  -- swapping goes with reading, as each constraint takes its table along
  split at h
  case isTrue hboth =>
    obtain ⟨_, _, hpure⟩ := Survey.result_bind_eq_ok.mp h
    cases hpure
    rw [if_pos hboth]
    rfl
  case isFalse hboth =>
    cases h
    rw [if_neg hboth]
    rfl

namespace Tree

variable {t : Tree} {fs : FileSystem} {readOnly : Bool}

theorem surveyDomain_reading {zones : List UInt32} {b : DomainBacking}
    (h : (t.surveyDomain readOnly zones).result fs = .ok b) :
    (t.surveyDomain true zones).result fs = .ok b.reading := by
  obtain ⟨zone, hzone, h⟩ := Survey.result_bind_eq_ok.mp h
  obtain ⟨longTerm, hlong, h⟩ := Survey.result_bind_eq_ok.mp h
  obtain ⟨shortTerm, hshort, h⟩ := Survey.result_bind_eq_ok.mp h
  refine Survey.result_bind_eq_ok.mpr ⟨_, surveyZone_reading hzone, ?_⟩
  refine Survey.result_bind_eq_ok.mpr ⟨_, surveyConstraint_reading hlong, ?_⟩
  refine Survey.result_bind_eq_ok.mpr ⟨_, surveyConstraint_reading hshort, ?_⟩
  exact DomainBacking.order_reading h

/-! ## Packages -/

theorem Found.reading {zones : List UInt32} {d : Domain × DomainBacking}
    (h : t.Found readOnly fs zones d) : t.Found true fs zones (d.1, d.2.reading) where
  identity := h.identity
  domain := surveyDomain_reading h.domain

/-- The loop meets the same domains, for what was met before has the same kinds. -/
theorem surveyPackage_reading {id : UInt32} {table : DomainTable}
    (h : (t.surveyPackage readOnly id).result fs = .ok table) :
    (t.surveyPackage true id).result fs = .ok table.reading := by
  obtain ⟨count, hcount, hfound, hnodup⟩ := surveyPackage_eq_ok.mp h
  refine surveyPackage_eq_ok.mpr ⟨count, hcount, ?_, ?_⟩
  · exact List.forall₂_map_right_iff.mpr (hfound.imp fun _ _ hzone => hzone.reading)
  · rw [DomainTable.keys_reading]
    exact hnodup

end Tree

end PowerZones
