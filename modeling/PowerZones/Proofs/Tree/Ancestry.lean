import PowerZones.Proofs.Tree.Counting
import PowerZones.Rapl.Package

/-!
# What exists, exists all the way up

Zones, constraints and packages are looked for under paths of different lengths, and by
different questions: is this a directory, is this a regular file, how many are there. The
answers fit together, since a walk to what is further down goes through the directories
of all that is above, links and permissions included.

* **`Tree.zoneExists_of_constraintExists`** and **`Tree.zoneExists_of_child`** are one level
  up, **`Tree.zoneExists_ancestor`** is all of them, by induction on the zones of an address;
* **`Tree.zoneExists_of_zoneCount`** and **`Tree.zoneExists_of_constraintCount`**: what is
  counted is below something;
* **`Tree.result_packageCount_eq_ok_iff`** takes the count of packages apart;
* **`existence_is_downward_closed`** puts these together.
-/

namespace PowerZones

namespace Tree

variable {t : Tree} {fs : FileSystem} {a : Address} {n number : UInt32}

/-! ## One level up, and all -/

/-- A constraint exists only at a zone that does. -/
theorem zoneExists_of_constraintExists (h : t.constraintExists fs a number = .ok true) :
    t.zoneExists fs a = .ok true := by
  obtain ⟨path, id, d, hpath, hid, hd, -⟩ := entry_of_constraintExists h
  exact zoneExists_of_directory hpath hid hd

/-- Every address on the way to one that exists exists too. -/
theorem zoneExists_ancestor (h : t.zoneExists fs a = .ok true) (depth : Nat) :
    t.zoneExists fs (a.ancestor depth) = .ok true := by
  induction a using Address.induction with
  | control name =>
    have hself : Address.ancestor { controlType := name } depth = { controlType := name } := by
      simp [Address.ancestor]
    rw [hself]
    exact h
  | child parent index ih =>
    by_cases hdepth : depth ≤ parent.zones.length
    · have habove : (parent.child index).ancestor depth = parent.ancestor depth := by
        simp only [Address.ancestor, Address.child, List.take_append_of_le_length hdepth]
      rw [habove]
      exact ih (zoneExists_of_child h)
    · have hlength : (parent.zones ++ [index]).length ≤ depth := by
        rw [List.length_append, List.length_singleton]
        omega
      have hself : (parent.child index).ancestor depth = parent.child index := by
        simp only [Address.ancestor, Address.child, List.take_of_length_le hlength]
      rw [hself]
      exact h

/-! ## Counts -/

/-- Zones are counted only below an address that exists. -/
theorem zoneExists_of_zoneCount (h : t.zoneCount fs a = .ok n) (hpos : 0 < n) :
    t.zoneExists fs a = .ok true := by
  have hdepth : a.zones.length < maxDepth := by
    by_contra hdeep
    rw [zoneCount, if_pos (Nat.not_lt.mp hdeep)] at h
    cases h
  exact zoneExists_of_child (zoneExists_of_lt_zoneCount hdepth h hpos)

/-- Constraints are counted only at an address that exists. -/
theorem zoneExists_of_constraintCount (h : t.constraintCount fs a = .ok n) (hpos : 0 < n) :
    t.zoneExists fs a = .ok true :=
  zoneExists_of_constraintExists (present_of_lt_probe h UInt32.zero_le hpos)

/-- The count of packages is that of the zones of the control type, if there are any. -/
theorem result_packageCount_eq_ok_iff {host : Host} :
    (t.packageCount.run host).result = .ok n ↔
      0 < n ∧ t.zoneCount host.files (raplAddress []) = .ok n := by
  rw [packageCount, Action.run_bind, Action.run_query]
  cases hcount : t.zoneCount host.files (raplAddress []) with
  | error e => simp
  | ok count =>
    by_cases hzero : count = 0
    · subst hzero
      -- a record is made, and the failure comes after it
      simp only [if_true, Action.run_bind, Action.run_note, Action.run_fail]
      constructor
      · intro h
        cases h
      · rintro ⟨hpos, hn⟩
        obtain rfl := Except.ok.inj hn
        exact absurd hpos (UInt32.lt_irrefl 0)
    · have hpos : 0 < count := UInt32.lt_of_le_of_ne UInt32.zero_le (Ne.symm hzero)
      simp only [if_neg hzero, Action.run_pure, Except.ok.injEq]
      constructor
      · rintro rfl
        exact ⟨hpos, rfl⟩
      · exact fun h => h.2

end Tree

/-- **What exists, exists all the way up.** The address above a zone that exists exists, and
so does that of a constraint, every address on the way, and the one below or at which
anything is counted. Where packages are counted, there is at least one, RAPL is supported,
and each of them exists. -/
theorem existence_is_downward_closed (t : Tree) (host : Host) :
    (∀ a index, t.zoneExists host.files (a.child index) = .ok true →
      t.zoneExists host.files a = .ok true) ∧
    (∀ a number, t.constraintExists host.files a number = .ok true →
      t.zoneExists host.files a = .ok true) ∧
    (∀ a depth, t.zoneExists host.files a = .ok true →
      t.zoneExists host.files (a.ancestor depth) = .ok true) ∧
    (∀ a n, 0 < n → t.zoneCount host.files a = .ok n → t.zoneExists host.files a = .ok true) ∧
    (∀ a n, 0 < n → t.constraintCount host.files a = .ok n →
      t.zoneExists host.files a = .ok true) ∧
    (∀ n, (t.packageCount.run host).result = .ok n →
      1 ≤ n ∧ (t.raplSupported.run host).result = .ok true ∧
        ∀ i < n, t.zoneExists host.files (raplAddress [i]) = .ok true) := by
  refine ⟨?_, ?_, ?_, ?_, ?_, ?_⟩
  · intro a index h
    exact Tree.zoneExists_of_child h
  · intro a number h
    exact Tree.zoneExists_of_constraintExists h
  · intro a depth h
    exact Tree.zoneExists_ancestor h depth
  · intro a n hpos h
    exact Tree.zoneExists_of_zoneCount h hpos
  · intro a n hpos h
    exact Tree.zoneExists_of_constraintCount h hpos
  · intro n h
    obtain ⟨hpos, hcount⟩ := Tree.result_packageCount_eq_ok_iff.mp h
    have hdepth : (raplAddress []).zones.length < maxDepth := by decide
    refine ⟨?_, ?_, ?_⟩
    · rw [UInt32.le_iff_toNat_le]
      exact UInt32.lt_iff_toNat_lt.mp hpos
    · -- the control type is the address above its zones
      show t.zoneExists host.files (raplAddress []) = .ok true
      exact Tree.zoneExists_of_zoneCount hcount hpos
    · intro i hi
      exact Tree.zoneExists_of_lt_zoneCount hdepth hcount hi

/-- A class directory as the system shows it: the package of `intel-rapl` is a link to the
directory of a device, which has one zone below and one constraint. -/
def Tree.linkedPackage : FileSystem where
  nodes :=
    let all : Permissions := ⟨true, true, true⟩
    #[.directory (((Directory.empty all 0).insert (.text "class") 1 (.refl true)).insert
        (.text "devices") 4 (.refl true)),
      .directory ((Directory.empty all 0).insert (.text "intel-rapl") 2 (.refl true)),
      .directory ((Directory.empty all 1).insert (.text "intel-rapl:0") 3 (.refl true)),
      .link "../../devices/package",
      .directory ((Directory.empty all 0).insert (.text "package") 5 (.refl true)),
      .directory (((Directory.empty all 4).insert (.text "intel-rapl:0:0") 6 (.refl true)).insert
        (.text "constraint_0_power_limit_uw") 7 (.refl true)),
      .directory (Directory.empty all 5),
      .file all [0x31]]
  top := 0
  current := 0

/-- Behind the link there are a zone and a constraint, so the package and the control type
exist. -/
theorem existence_is_downward_closed_linked :
    let t : Tree := { root := "/class" }
    let host := Host.ofFiles Tree.linkedPackage
    let a := raplAddress [0]
    (t.zoneExists host.files (a.child 0) = .ok true ∧ t.zoneExists host.files a = .ok true) ∧
    (t.constraintExists host.files a 0 = .ok true ∧ t.zoneExists host.files a = .ok true) ∧
    t.zoneExists host.files ((a.child 0).ancestor 0) = .ok true ∧
    (t.zoneCount host.files a = .ok 1 ∧ t.zoneExists host.files a = .ok true) ∧
    (t.constraintCount host.files a = .ok 1 ∧ t.zoneExists host.files a = .ok true) ∧
    ((t.packageCount.run host).result = .ok 1 ∧ (t.raplSupported.run host).result = .ok true ∧
      ∀ i < 1, t.zoneExists host.files (raplAddress [i]) = .ok true) := by
  intro t host a
  have hzone : t.zoneExists host.files (a.child 0) = .ok true := by decide +kernel
  have hconstraint : t.constraintExists host.files a 0 = .ok true := by decide +kernel
  have hzones : t.zoneCount host.files a = .ok 1 := by decide +kernel
  have hconstraints : t.constraintCount host.files a = .ok 1 := by decide +kernel
  have hpackages : (t.packageCount.run host).result = .ok 1 := by decide +kernel
  obtain ⟨hup, hat, hall, hcounted, hcountedAt, hpackage⟩ := existence_is_downward_closed t host
  have hpos : (0 : UInt32) < 1 := by decide
  exact ⟨⟨hzone, hup a 0 hzone⟩, ⟨hconstraint, hat a 0 hconstraint⟩, hall (a.child 0) 0 hzone,
    ⟨hzones, hcounted a 1 hpos hzones⟩, ⟨hconstraints, hcountedAt a 1 hpos hconstraints⟩,
    hpackages, (hpackage 1 hpackages).2⟩

end PowerZones
