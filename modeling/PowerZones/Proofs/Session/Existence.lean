import PowerZones.Proofs.Entity.Opening
import PowerZones.Proofs.Session.SlotOrigin
import PowerZones.Proofs.Session.Survey

/-!
# Two ways to find a constraint

A constraint exists if its power limit does. A query asks for a regular file; a handle
has the power limit if it could be opened. The two say the same unless the path of the
power limit leads to a node that can be opened but is no file: a directory, which can be
opened for reading, or a device.

* **`FileSystem.Regular`** and **`FileSystem.Irregular`** are the nodes that can be
  opened at all;
* **`Tree.IrregularLimit`** says that the power limit of a constraint is no file;
* **`supports_powerLimit_iff`**: a handle and the query agree just where it is not so,
  for a constraint opened alone and for every constraint of a package.
-/

namespace PowerZones

open PowerZones.Action

/-! ## Nodes that can be opened -/

namespace FileSystem

variable {fs : FileSystem} {node : NodeId} {path : String} {mode : Access}

/-- A regular file. -/
def Regular (fs : FileSystem) (node : NodeId) : Prop :=
  ∃ permissions bytes, fs.node? node = some (.file permissions bytes)

/-- A directory or a device: what can be opened and is no regular file. -/
def Irregular (fs : FileSystem) (node : NodeId) : Prop :=
  (∃ d, fs.node? node = some (.directory d)) ∨ ∃ d, fs.node? node = some (.device d)

theorem not_irregular_of_regular (h : fs.Regular node) : ¬fs.Irregular node := by
  obtain ⟨permissions, bytes, hfile⟩ := h
  rintro (⟨d, hd⟩ | ⟨d, hd⟩) <;> · rw [hfile] at hd; cases hd

theorem regular_or_irregular_of_permit (h : fs.permit node mode = .ok ()) :
    fs.Regular node ∨ fs.Irregular node := by
  unfold permit at h
  cases hnode : fs.node? node with
  | none => rw [hnode] at h; cases h
  | some n =>
    cases n with
    | file permissions bytes => exact .inl ⟨permissions, bytes, hnode⟩
    | directory d => exact .inr (.inl ⟨d, hnode⟩)
    | link target => rw [hnode] at h; cases h
    | device d => exact .inr (.inr ⟨d, hnode⟩)

/-- Whatever could be opened is there, also where it may not be opened. -/
theorem permit_ne_noEntry (h : fs.Regular node ∨ fs.Irregular node) :
    fs.permit node mode ≠ .error .noEntry := by
  unfold permit
  rcases h with ⟨permissions, bytes, hnode⟩ | ⟨d, hnode⟩ | ⟨d, hnode⟩
  · rw [hnode]
    dsimp only
    split <;> simp
  · rw [hnode]
    dsimp only
    split
    · simp
    · split <;> simp
  · simp [hnode]

theorem isRegularFile_iff : fs.isRegularFile path = true ↔
    ∃ node, fs.locate true path = .ok node ∧ fs.Regular node := by
  unfold isRegularFile Regular
  cases fs.locate true path with
  | error e => simp
  | ok node =>
    simp only [Except.ok.injEq, exists_eq_left']
    cases fs.node? node with
    | none => simp
    | some n => cases n <;> simp

/-- A path can be opened only where it leads to a node that can be. -/
theorem locate_of_access (h : fs.access path mode = .ok node) :
    fs.locate true path = .ok node ∧ (fs.Regular node ∨ fs.Irregular node) := by
  unfold access at h
  cases hlocate : fs.locate true path with
  | error e => rw [hlocate] at h; cases h
  | ok id =>
    rw [hlocate] at h
    cases hpermit : fs.permit id mode with
    | error e => simp only [hpermit] at h; cases h
    | ok u =>
      simp only [hpermit] at h
      cases h
      exact ⟨rfl, regular_or_irregular_of_permit hpermit⟩

/-- Where something can be opened in some way, there is something in every way. -/
theorem access_ne_noEntry (hlocate : fs.locate true path = .ok node)
    (h : fs.Regular node ∨ fs.Irregular node) : fs.access path mode ≠ .error .noEntry := by
  have hne : fs.permit node mode ≠ .error .noEntry := permit_ne_noEntry h
  simp only [access, hlocate]
  cases hpermit : fs.permit node mode with
  | ok u => simp [Except.map]
  | error e =>
    rw [hpermit] at hne
    simpa [Except.map] using hne

end FileSystem

/-! ## Constraints -/

namespace Tree

/-- The path of the power limit of a constraint leads to a directory or a device. -/
def IrregularLimit (t : Tree) (fs : FileSystem) (a : Address) (number : UInt32) : Prop :=
  ∃ path node, t.attributePath a (.constraint number .powerLimit) = .ok path ∧
    fs.locate true path = .ok node ∧ fs.Irregular node

variable {t : Tree} {fs : FileSystem} {a : Address} {number : UInt32}

/-- A slot is found open where the path leads to anything that can be opened. -/
theorem isSome_iff_of_surveySlot {attr : Attribute} {readOnly : Bool} {path : String}
    {found : Option Backing} (hpath : t.attributePath a attr = .ok path)
    (h : (t.surveySlot a attr (!readOnly && attr.writable)).result fs = .ok found) :
    found.isSome = true ↔
      ∃ node, fs.locate true path = .ok node ∧ (fs.Regular node ∨ fs.Irregular node) := by
  constructor
  · intro hsome
    obtain ⟨b, rfl⟩ := Option.isSome_iff_exists.mp hsome
    obtain ⟨hresolved, haccess, -⟩ := surveySlot_eq_some h
    obtain rfl := Except.ok.inj (hpath.symm.trans hresolved)
    exact ⟨b.node, FileSystem.locate_of_access haccess⟩
  · rintro ⟨node, hlocate, hnode⟩
    cases found with
    | some b => rfl
    | none =>
      obtain ⟨path', hresolved, hlacks⟩ := surveySlot_eq_none_iff.mp h
      obtain rfl := Except.ok.inj (hpath.symm.trans hresolved)
      exact absurd hlacks (FileSystem.access_ne_noEntry hlocate hnode)

/-- What was found for the power limit of a constraint agrees with the query for the
constraint unless the limit is irregular. -/
theorem isSome_iff_constraintExists {readOnly : Bool} {found : Option Backing}
    (h : (t.surveySlot a (.constraint number .powerLimit)
      (!readOnly && ConstraintAttribute.powerLimit.writable)).result fs = .ok found) :
    (found.isSome = true ↔ t.constraintExists fs a number = .ok true) ↔
      ¬t.IrregularLimit fs a number := by
  obtain ⟨path, hpath, -⟩ := Survey.result_bind_eq_ok.mp h
  rw [Survey.result_ofExcept] at hpath
  have hexists : t.constraintExists fs a number = .ok true ↔ fs.isRegularFile path = true := by
    unfold constraintExists
    rw [hpath]
    exact ⟨Except.ok.inj, congrArg _⟩
  have hirregular : t.IrregularLimit fs a number ↔
      ∃ node, fs.locate true path = .ok node ∧ fs.Irregular node := by
    unfold IrregularLimit
    rw [hpath]
    simp
  rw [isSome_iff_of_surveySlot hpath h, hexists, FileSystem.isRegularFile_iff, hirregular]
  constructor
  · rintro hagree ⟨node, hlocate, hnode⟩
    -- what can be opened there would be a file as well
    obtain ⟨node', hlocate', hregular⟩ := hagree.mp ⟨node, hlocate, .inr hnode⟩
    obtain rfl := Except.ok.inj (hlocate.symm.trans hlocate')
    exact FileSystem.not_irregular_of_regular hregular hnode
  · intro hno
    refine exists_congr fun node => and_congr_right fun hlocate => or_iff_left fun hnode => ?_
    exact hno ⟨node, hlocate, hnode⟩

end Tree

/-- A constraint that was opened has its power limit just where the query says that the
constraint exists, unless the limit is irregular. -/
theorem Constraint.StandsOn.supports_iff {t : Tree} {fs : FileSystem} {a : Address}
    {readOnly : Bool} {c : Constraint} {b : ConstraintBacking} {ds : Descriptors}
    (hstands : c.StandsOn ds b)
    (hb : (t.surveyConstraint a readOnly b.number).result fs = .ok b.table) :
    (c.supports .powerLimit = true ↔ t.constraintExists fs a b.number = .ok true) ↔
      ¬t.IrregularLimit fs a b.number := by
  obtain ⟨found, hfound, hslot⟩ := hstands.slots.exists_found hb .powerLimit
  have hopen : c.supports .powerLimit = found.isSome := hslot.isOpen_eq
  rw [hopen]
  exact Tree.isSome_iff_constraintExists hfound

/-- The tables of both constraints were surveyed at the address of the zone. -/
theorem DomainBacking.SurveyedAt.constraint {t : Tree} {readOnly : Bool} {fs : FileSystem}
    {zones : List UInt32} {b : DomainBacking} (h : b.SurveyedAt t readOnly fs zones) (term : Term) :
    (t.surveyConstraint (raplAddress zones) readOnly (b.constraint term).number).result fs =
      .ok (b.constraint term).table := by
  cases term with
  | long => exact h.longTerm
  | short => exact h.shortTerm

/-- As long as the files are the same, a handle has the power limit of a constraint
just where the query says that the constraint exists, unless the limit is irregular:
for a constraint that was opened, and for those of every domain of a package. -/
theorem supports_powerLimit_iff (t : Tree) (readOnly : Bool) (host later : Host) :
    (∀ a number c, ((t.openConstraint a number readOnly).run host).result = .ok c →
      later.files = ((t.openConstraint a number readOnly).run host).host.files →
      ((c.supports .powerLimit = true ↔ t.constraintExists later.files a number = .ok true) ↔
        ¬t.IrregularLimit later.files a number)) ∧
    ∀ id p, ((t.openPackage id readOnly).run host).result = .ok p →
      later.files = ((t.openPackage id readOnly).run host).host.files →
      ∀ k z term, p.zone k = .ok z → ∃ number, p.constraintNumber k term = .ok number ∧
        ((p.termSupported k term = true ↔
          t.constraintExists later.files (raplAddress z.zones) number = .ok true) ↔
          ¬t.IrregularLimit later.files (raplAddress z.zones) number) := by
  constructor
  · intro a number c hopen hfiles
    have hrealizes := t.realizes_openConstraint a readOnly host number
    obtain ⟨table, htable, hnumber, hslots⟩ := hrealizes.of_ok hopen
    rw [hfiles, hrealizes.files]
    have hstands : c.StandsOn _ ⟨number, table⟩ := ⟨hnumber, hslots⟩
    exact hstands.supports_iff htable
  · intro id p hopen hfiles k z term hz
    have hrealizes := t.realizes_openPackage readOnly id host
    obtain ⟨table, htable, -, hdomains⟩ := hrealizes.of_ok hopen
    rw [hfiles, hrealizes.files]
    cases hlook : p.domains.lookup k with
    | none =>
      rw [Package.zone, Package.domain, hlook] at hz
      cases hz
    | some d =>
      obtain ⟨hzone, hconstraints⟩ := Package.parts_of_lookup hlook
      obtain rfl := Except.ok.inj (hzone.symm.trans hz)
      obtain ⟨zones, b, -, hstands, hb⟩ := Package.exists_surveyedAt hdomains htable hlook
      obtain rfl : d.zone.zones = zones := hstands.zone.zones.trans hb.path
      have hsupported : p.termSupported k term = (d.constraint term).supports .powerLimit := by
        rw [Package.termSupported, Package.constraintSupports, hconstraints]
      refine ⟨(b.constraint term).number, ?_, ?_⟩
      · rw [Package.constraintNumber, hconstraints, ← (hstands.constraint term).number]
        rfl
      · rw [hsupported]
        exact (hstands.constraint term).supports_iff (hb.constraint term)

/-- A package of one zone that has a directory where the power limit of constraint 0
should be, and a file for that of constraint 1. -/
def directoryLimit : FileSystem where
  nodes :=
    let all : Permissions := ⟨true, true, true⟩
    let text (s : String) : Node := .file all (s.toList.map fun c => c.val.toUInt8)
    let zone := ((Directory.empty all 2).insert (.text "name") 4 (.refl true)).insert
      (.text "constraint_0_power_limit_uw") 5 (.refl true)
    #[.directory ((Directory.empty all 0).insert (.text "p") 1 (.refl true)),
      .directory ((Directory.empty all 0).insert (.text "intel-rapl") 2 (.refl true)),
      .directory ((Directory.empty all 1).insert (.text "intel-rapl:0") 3 (.refl true)),
      .directory (zone.insert (.text "constraint_1_power_limit_uw") 6 (.refl true)),
      text "package-0\n", .directory (Directory.empty all 3), text "200\n"]
  top := 0
  current := 0

/-- What there is to be seen of a constraint of a package: its path, its number, and
whether it has a power limit. -/
private def limitSeen (p : Package) (k : Domain) (term : Term) :
    Except Failure (List UInt32) × Except Failure UInt32 × Bool :=
  ((p.zone k).map Zone.zones, p.constraintNumber k term, p.termSupported k term)

private theorem opened_directoryLimit :
    ∃ p, ((Tree.openPackage { root := "/p" } 0 true).run (.ofFiles directoryLimit)).result = .ok p ∧
      ∀ term, limitSeen p .package term = (.ok [0], .ok term.number, true) := by
  have hseen : (((Tree.openPackage { root := "/p" } 0 true).run
      (.ofFiles directoryLimit)).result.toOption.map fun p =>
        (limitSeen p .package .long, limitSeen p .package .short)) =
      some ((.ok [0], .ok 0, true), .ok [0], .ok 1, true) := by
    decide +kernel
  generalize (Tree.openPackage { root := "/p" } 0 true).run (.ofFiles directoryLimit) = o at *
  obtain ⟨p, hp, hboth⟩ := Option.map_eq_some_iff.mp hseen
  obtain ⟨hlong, hshort⟩ := Prod.mk.inj hboth
  refine ⟨p, ?_, fun term => ?_⟩
  · cases hresult : o.result with
    | error e => rw [hresult] at hp; cases hp
    | ok p' => rw [hresult] at hp; rw [Option.some.inj hp]
  · cases term with
    | long => exact hlong
    | short => exact hshort

/-- The file of constraint 1 is found both ways. -/
theorem supports_powerLimit_iff_file :
    let t : Tree := { root := "/p" }
    ∃ p, ((t.openPackage 0 true).run (.ofFiles directoryLimit)).result = .ok p ∧
      p.constraintNumber .package .short = .ok 1 ∧
      (p.termSupported .package .short = true ↔
        t.constraintExists directoryLimit (raplAddress [0]) 1 = .ok true) := by
  intro t
  subst t
  obtain ⟨p, hopen, hseen⟩ := opened_directoryLimit
  obtain ⟨hzones, hlimit⟩ := Prod.mk.inj (hseen .short)
  have hnumber : p.constraintNumber .package .short = .ok 1 := (Prod.mk.inj hlimit).1
  have hregular : ¬Tree.IrregularLimit { root := "/p" } directoryLimit (raplAddress [0]) 1 := by
    rintro ⟨path, node, hpath, hlocate, hnode⟩
    obtain rfl : "/p/intel-rapl/intel-rapl:0/constraint_1_power_limit_uw" = path :=
      Except.ok.inj ((by decide +kernel : _ = Except.ok _).symm.trans hpath)
    obtain rfl : 6 = node := Except.ok.inj ((by decide +kernel : _ = Except.ok _).symm.trans hlocate)
    rcases hnode with ⟨d, hd⟩ | ⟨d, hd⟩ <;> cases hd
  have hfiles := (Tree.realizes_openPackage { root := "/p" } true 0 (.ofFiles directoryLimit)).files
  cases hz : p.zone .package with
  | error e => rw [hz] at hzones; cases hzones
  | ok z =>
    rw [hz] at hzones
    obtain ⟨number, hsame, hiff⟩ := (supports_powerLimit_iff _ true (.ofFiles directoryLimit)
      (.ofFiles directoryLimit)).2 0 p hopen hfiles.symm .package z .short hz
    obtain rfl := Except.ok.inj (hnumber.symm.trans hsame)
    rw [Except.ok.inj hzones] at hiff
    exact ⟨p, hopen, hnumber, hiff.mpr hregular⟩

/-- The directory is taken for a power limit by the package, while the query says that
there is no such constraint. -/
theorem not_supports_powerLimit_iff_directory :
    let t : Tree := { root := "/p" }
    let opened := (t.openPackage 0 true).run (.ofFiles directoryLimit)
    ∃ p z, opened.result = .ok p ∧ p.zone .package = .ok z ∧ z.zones = [0] ∧
      p.constraintNumber .package .long = .ok 0 ∧
      ¬(p.termSupported .package .long = true ↔
        t.constraintExists opened.host.files (raplAddress z.zones) 0 = .ok true) := by
  intro t opened
  subst t opened
  have hmissing : Tree.constraintExists { root := "/p" } directoryLimit (raplAddress [0]) 0 =
      .ok false := by decide +kernel
  have hfiles := (Tree.realizes_openPackage { root := "/p" } true 0 (.ofFiles directoryLimit)).files
  obtain ⟨p, hopen, hseen⟩ := opened_directoryLimit
  obtain ⟨hzones, hlimit⟩ := Prod.mk.inj (hseen .long)
  obtain ⟨hnumber, hsupported⟩ := Prod.mk.inj hlimit
  cases hz : p.zone .package with
  | error e => rw [hz] at hzones; cases hzones
  | ok z =>
    rw [hz] at hzones
    refine ⟨p, z, hopen, hz, Except.ok.inj hzones, hnumber, ?_⟩
    rw [hfiles, Except.ok.inj hzones, hsupported]
    intro hagree
    cases hmissing.symm.trans (hagree.mp rfl)

end PowerZones
