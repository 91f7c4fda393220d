import PowerZones.Proofs.Rapl.Duplicate
import PowerZones.Proofs.Tree.Injectivity
import Mathlib.Algebra.GroupWithZero.Nat

/-!
# The first problem of a package

Opening a package fails with the first problem on the way.

* **`Tree.exists_numbered`**: below a zone that can be opened there is room for the names
  of a billion zones, so they are numbered as long as one of these is missing;
* **`Tree.ReportsFirst`** is all that the failure of opening a package tells, and
  **`openPackage_reports_first`** proves it.
-/

namespace PowerZones

/-! ## Zones that can be counted -/

namespace Tree

variable {t : Tree} {readOnly : Bool} {host : Host} {id n : UInt32}

/-- Where a constraint can be opened, all its attributes have a path. -/
theorem exists_attributePath_of_openConstraint {a : Address} {number : UInt32} {c : Constraint}
    (h : ((t.openConstraint a number readOnly).run host).result = .ok c)
    (attr : ConstraintAttribute) : ∃ path, t.attributePath a (.constraint number attr) = .ok path := by
  obtain ⟨table, htable, -⟩ := (t.realizes_openConstraint a readOnly host number).of_ok h
  obtain ⟨_, hslot, -⟩ := Survey.lookup_table htable (Vocabulary.complete attr)
  obtain ⟨path, hpath, -⟩ := Survey.result_bind_eq_ok.mp hslot
  exact ⟨path, hpath⟩

/-- Below a zone whose first constraint has its paths, there is room for the name of a zone
with an index of nine digits. -/
theorem exists_zonePath_below {path : String}
    (h : t.attributePath (raplAddress [id]) (.constraint 0 .maxTimeWindow) = .ok path)
    (hn : n < 1000000000) : ∃ p, t.zonePath (raplAddress [id, n]) = .ok p := by
  obtain ⟨-, directory, hdirectory, rfl, hsize⟩ := attributePath_eq_ok.mp h
  have hfile : (Attribute.constraint 0 .maxTimeWindow).fileName.utf8ByteSize = 31 := by decide
  have hid : (Nat.toDigits 10 id.toNat).length ≤ 10 :=
    (Nat.length_toDigits_le_iff (by decide) (by decide)).mpr
      (Nat.lt_trans id.toNat_lt (by decide))
  have hindex : (Nat.toDigits 10 n.toNat).length ≤ 9 :=
    (Nat.length_toDigits_le_iff (by decide) (by decide)).mpr (UInt32.lt_iff_toNat_lt.mp hn)
  have hname : (raplAddress [id, n]).directoryName =
      raplControlType ++ ":" ++ Nat.repr id.toNat ++ ":" ++ Nat.repr n.toNat := rfl
  have hcontrol : raplControlType.utf8ByteSize = 10 := by decide
  have hcolon : ":".utf8ByteSize = 1 := by decide
  refine ⟨_, zonePath_child hdirectory (length_zones_lt_maxDepth id) ?_⟩
  show (join directory (raplAddress [id, n]).directoryName).utf8ByteSize < maxPathSize
  rw [utf8ByteSize_join, hfile] at hsize
  rw [utf8ByteSize_join, hname]
  simp only [String.utf8ByteSize_append, hcontrol, hcolon, Numeral.size_repr]
  omega

/-- The zones below a zone that can be opened are numbered, as long as an index of nine
digits is free. -/
theorem exists_numbered (h : (topChecks id).findSome? (Check.problem? t readOnly host) = none)
    (hn : n < 1000000000) (hgap : t.zoneExists host.files (raplAddress [id, n]) ≠ .ok true) :
    ∃ count ≤ n, t.Numbered host.files (raplAddress [id]) count := by
  have hfirst : Check.problem? t readOnly host (.constraint [id] .long) = none :=
    List.findSome?_eq_none_iff.mp h _ (by simp [topChecks, openingChecks])
  obtain ⟨c, hc⟩ := failureOf_eq_none_iff.mp hfirst
  obtain ⟨path, hpath⟩ := exists_attributePath_of_openConstraint hc .maxTimeWindow
  obtain ⟨m, hm, hbelow, hfree⟩ :=
    exists_first_gap (fun index => t.zoneExists host.files (raplAddress [id, index])) hgap
  refine ⟨m, hm, hbelow, ?_⟩
  show t.zoneExists host.files (raplAddress [id, m]) = .ok false
  obtain ⟨p, hp⟩ := exists_zonePath_below hpath (UInt32.lt_of_le_of_lt hm hn)
  exact zoneExists_eq_false hp hfree

end Tree

/-! ## The first problem -/

/-- What the failure of opening a package tells.

Opening fails with the first problem that the checks come to. It tells a duplicate just
where a domain is met for the second time, and has opened nothing of the zone then but the
name. A problem of the top-level zone is told whatever the rest is like; one of a zone
below it, whatever the zones after that are like, as long as they are numbered, which they
are unless there is no path for a zone with an index of ten digits; and what is beyond a
gap in the numbers makes no difference. -/
structure Tree.ReportsFirst (t : Tree) (readOnly : Bool) (host : Host) (id : UInt32) : Prop where
  first : ∀ e, ((t.openPackage id readOnly).run host).result = .error e ↔
    (t.packageChecks host.files id).findSome? (Check.problem? t readOnly host) = some e
  duplicate : ∀ k id' index,
    ((t.openPackage id readOnly).run host).result = .error (.duplicateDomain k id' index) ↔
      id' = id ∧ ∃ count kinds, t.MeetsTwice host readOnly id index count kinds k
  untouched : ∀ k id' index,
    ((t.openPackage id readOnly).run host).result = .error (.duplicateDomain k id' index) →
      ∃ ds : List PowerDomain,
        List.Forall₂ (fun zones d => ((t.openDomain zones readOnly).run host).result = .ok d)
          (packagePaths id index) ds ∧
        ((t.openPackage id readOnly).run host).host.everOpened =
          host.everOpened + (ds.map fun d => d.descriptors.length + 1).sum + 1
  top : ∀ host' e, t.SameZone readOnly host host' [id] →
    (topChecks id).findSome? (Check.problem? t readOnly host) = some e →
      ((t.openPackage id readOnly).run host').result = .error e
  later : ∀ host' n count count' e, t.SameUpTo readOnly host host' id n →
    t.Numbered host.files (raplAddress [id]) count →
    t.Numbered host'.files (raplAddress [id]) count' → n ≤ count →
    (checksUpTo id n).findSome? (Check.problem? t readOnly host) = some e →
      ((t.openPackage id readOnly).run host').result = .error e
  numbered : ∀ n < 1000000000,
    (topChecks id).findSome? (Check.problem? t readOnly host) = none →
    t.zoneExists host.files (raplAddress [id, n]) ≠ .ok true →
      ∃ count ≤ n, t.Numbered host.files (raplAddress [id]) count
  gap : ∀ host' n, t.SameUpTo readOnly host host' id n →
    t.zoneExists host.files (raplAddress [id, n]) ≠ .ok true →
    t.zoneExists host'.files (raplAddress [id, n]) ≠ .ok true →
      ∀ e, ((t.openPackage id readOnly).run host').result = .error e ↔
        ((t.openPackage id readOnly).run host).result = .error e

/-- Opening a package reports the first problem. -/
theorem openPackage_reports_first (t : Tree) (id : UInt32) (readOnly : Bool) (host : Host) :
    t.ReportsFirst readOnly host id := by
  have hfirst (host : Host) (e : Failure) :
      ((t.openPackage id readOnly).run host).result = .error e ↔
        (t.packageChecks host.files id).findSome? (Check.problem? t readOnly host) = some e := by
    rw [(t.realizes_openPackage readOnly id host).error_iff, ← failureOf_eq_some_iff,
      Tree.failureOf_surveyPackage]
  refine ⟨hfirst host, fun k id' index => Tree.openPackage_eq_duplicate,
    fun k id' index => Tree.everOpened_of_duplicate, fun host' e hsame h => ?_,
    fun host' n count count' e hsame hcount hcount' hn h => ?_,
    fun n hn htop hgap => Tree.exists_numbered htop hn hgap,
    fun host' n hsame hgap hgap' e => ?_⟩
  · rw [hfirst]
    exact hsame.findSome?_packageChecks h
  · rw [hfirst]
    exact hsame.findSome?_packageChecks hcount hcount' hn h
  · rw [hfirst, hfirst, hsame.findSome?_packageChecks_eq hgap hgap']

/-- A package zone with another one below it, whose energy counter nobody may read. -/
def lockedDuplicate : FileSystem where
  nodes :=
    let all : Permissions := ⟨true, true, true⟩
    let text (s : String) : Node := .file all (s.toList.map fun c => c.val.toUInt8)
    let zone := (Directory.empty all 2).insert (.text "name") 4 (.refl true)
    let below := (Directory.empty all 3).insert (.text "name") 4 (.refl true)
    #[.directory ((Directory.empty all 0).insert (.text "p") 1 (.refl true)),
      .directory ((Directory.empty all 0).insert (.text "intel-rapl") 2 (.refl true)),
      .directory ((Directory.empty all 1).insert (.text "intel-rapl:0") 3 (.refl true)),
      .directory (zone.insert (.text "intel-rapl:0:0") 5 (.refl true)),
      text "package-0\n",
      .directory (below.insert (.text "energy_uj") 6 (.refl true)),
      .file ⟨false, false, false⟩ []]
  top := 0
  current := 0

/-- The zone below could not be opened, and is told to be a duplicate nevertheless. -/
theorem openPackage_reports_first_locked :
    let t : Tree := { root := "/p" }
    Check.problem? t true (.ofFiles lockedDuplicate) (.zone [0, 0]) =
        some (.permissionDenied "/p/intel-rapl/intel-rapl:0/intel-rapl:0:0/energy_uj"
          (.system .accessDenied)) ∧
      ((t.openPackage 0 true).run (.ofFiles lockedDuplicate)).result =
        .error (.duplicateDomain .package 0 0) := by
  intro t
  subst t
  have hopen : ((Tree.openDomain { root := "/p" } [0] true).run
      (.ofFiles lockedDuplicate)).result.toOption.isSome = true := by decide +kernel
  refine ⟨by decide +kernel, ?_⟩
  refine ((openPackage_reports_first _ 0 true _).duplicate .package 0 0).mpr
    ⟨rfl, 1, [.package], ?_⟩
  exact
    { counted := by decide +kernel
      below := by decide
      recognized := .cons ⟨"package-0", by decide +kernel, by decide⟩ .nil
      distinct := by decide
      openable := fun zones hzones => by
        obtain rfl := List.mem_singleton.mp hzones
        cases hresult : ((Tree.openDomain { root := "/p" } [0] true).run
            (.ofFiles lockedDuplicate)).result with
        | ok d => exact ⟨d, rfl⟩
        | error e => rw [hresult] at hopen; cases hopen
      again := ⟨"package-0", by decide +kernel, by decide⟩
      met := by decide }

end PowerZones
