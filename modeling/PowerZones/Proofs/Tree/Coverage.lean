import PowerZones.Proofs.Tree.Listing
import PowerZones.Proofs.Tree.Probing
import PowerZones.Proofs.Tree.Refusal

/-!
# Listing covers probing

A listing walks through one directory and keeps an entry only if its type, its text, the
beginning of its name and the numeral after that are right. Probing asks for one path
after the other. Whatever probing finds passes each of the four, so that no zone is lost.

* **`Tree.searchable_of_zoneExists`**: a zone that is found makes the directory above one
  in which listing and probing agree;
* **`Tree.mem_zoneIndices`**: so its index is listed;
* **`Tree.Covers`** and **`Tree.Vacant`** say what a listing is to have, below an address
  and below one that does not exist, and **`listing_covers_probing`** that it is so.
-/

namespace PowerZones

namespace Tree

variable {t : Tree} {fs : FileSystem} {parent : Address} {v : List UInt32} {i : UInt32}

/-- The directory above a zone that exists can be searched. -/
theorem searchable_of_zoneExists (h : t.zoneExists fs (parent.child i) = .ok true) :
    ∃ path, t.Searchable fs parent path ∧
      (join path (parent.child i).directoryName).utf8ByteSize < maxPathSize := by
  obtain ⟨childPath, hchild, hdirectory⟩ := zoneExists_eq_ok_iff.mp h
  obtain ⟨path, hpath, rfl⟩ := exists_zonePath_of_child hchild
  obtain ⟨p, hp, -⟩ := FileSystem.isDirectory_iff.mp hdirectory
  obtain ⟨id, d, hid, hsearch, -⟩ :=
    FileSystem.exists_search_of_join (openPath_of_zonePath hpath) (plainName_of_zonePath hchild) hp
  obtain ⟨-, hdepth, -, hroom⟩ := zonePath_eq_ok.mp hchild
  have hdepth : parent.zones.length < maxDepth := by
    rwa [Address.child, List.length_append, List.length_singleton] at hdepth
  exact ⟨path, ⟨hdepth, hpath, id, d, hid, hsearch⟩, hroom⟩

/-- A listing shows every zone that exists. -/
theorem mem_zoneIndices (hv : t.zoneIndices fs parent = .ok v)
    (h : t.zoneExists fs (parent.child i) = .ok true) : i ∈ v := by
  obtain ⟨path, hsearchable, hroom⟩ := searchable_of_zoneExists h
  obtain ⟨names, hnames, -, -, hperm⟩ := zoneIndices_eq_ok hsearchable hv
  have hname := (zoneExists_iff_mem hsearchable hroom hnames).mp h
  exact hperm.mem_iff.mpr (List.mem_filterMap.mpr ⟨_, hname, indexAfter?_child parent i⟩)

/-- A listing is ascending, whatever the directory holds. -/
theorem pairwise_zoneIndices (hv : t.zoneIndices fs parent = .ok v) : v.Pairwise (· ≤ ·) := by
  unfold zoneIndices at hv
  cases hpath : t.zonePath parent with
  | error e => rw [hpath] at hv; cases hv
  | ok path =>
    simp only [hpath] at hv
    split at hv
    · cases hnames : fs.subdirectories path with
      | error why => rw [hnames] at hv; cases hv
      | ok names =>
        rw [hnames] at hv
        obtain rfl := Except.ok.inj hv
        exact List.pairwise_mergeSort' _ _
    · obtain rfl := Except.ok.inj hv
      exact .nil

/-- Below a directory that is not there, nothing is listed. -/
theorem zoneIndices_of_not_exists (h : t.zoneExists fs parent = .ok false) :
    t.zoneIndices fs parent = .ok [] := by
  obtain ⟨path, hpath, hno⟩ := zoneExists_eq_ok_iff.mp h
  simp only [zoneIndices, hpath, hno, Bool.false_eq_true, if_false]

/-- A listing is ascending and misses nothing: neither a zone that probing finds, whatever
is missing before it, nor one that is counted. -/
structure Covers (t : Tree) (fs : FileSystem) (parent : Address) (v : List UInt32) : Prop where
  ascending : v.Pairwise (· ≤ ·)
  probed : ∀ i, t.zoneExists fs (parent.child i) = .ok true → i ∈ v
  counted : ∀ n, t.zoneCount fs parent = .ok n → ∀ i < n, i ∈ v

/-- There is nothing below an address: nothing is listed, and none are counted, unless the
path of the first zone is too long to look. -/
structure Vacant (t : Tree) (fs : FileSystem) (parent : Address) : Prop where
  listed : ∀ v, t.zoneIndices fs parent = .ok v → v = []
  listed_of_path : t.zoneExists fs parent = .ok false → t.zoneIndices fs parent = .ok []
  counted : t.zoneCount fs parent = .ok 0 ∨
    ∃ size, t.zoneCount fs parent = .error (.pathTooLong size) ∧ maxPathSize ≤ size

theorem covers_zoneIndices (hdepth : parent.zones.length < maxDepth)
    (hv : t.zoneIndices fs parent = .ok v) : t.Covers fs parent v where
  ascending := pairwise_zoneIndices hv
  probed _ h := mem_zoneIndices hv h
  counted _ hcount _ hi := mem_zoneIndices hv (zoneExists_of_lt_zoneCount hdepth hcount hi)

/-- Zones below an address that does not exist are counted up to the first, which does not
exist either. -/
theorem vacant_of_not_exists (hproper : parent.refusal? = none)
    (hdepth : parent.zones.length < maxDepth) (h : t.zoneExists fs parent ≠ .ok true) :
    t.Vacant fs parent where
  listed v hv := by
    cases hparent : t.zoneExists fs parent with
    | error e =>
      rw [zoneIndices, zoneExists_eq_error_iff.mp hparent] at hv
      cases hv
    | ok b =>
      cases b with
      | true => exact absurd hparent h
      | false => exact (Except.ok.inj ((zoneIndices_of_not_exists hparent).symm.trans hv)).symm
  listed_of_path := zoneIndices_of_not_exists
  counted := by
    have hgap : t.zoneExists fs (parent.child 0) ≠ .ok true := fun h0 => h (zoneExists_of_child h0)
    have hbelow (j : UInt32) (hj : j < 0) : t.zoneExists fs (parent.child j) = .ok true :=
      absurd hj UInt32.not_lt_zero
    rw [zoneCount_of_gap hdepth hbelow hgap]
    cases hfirst : t.zoneExists fs (parent.child 0) with
    | ok b => exact .inl rfl
    | error e =>
      obtain ⟨⟨size, rfl, hsize⟩, -⟩ := zonePath_eq_error
        ((Address.refusal?_child hdepth 0).trans hproper) (zoneExists_eq_error_iff.mp hfirst)
      exact .inr ⟨size, rfl, hsize⟩

end Tree

/-- **Listing misses nothing that probing sees.** Below an address of a plain control type
that has room for a level below, a listing is ascending and has every zone that exists, so
all that are counted. Below an address that does not exist it is empty, and nothing is
counted. -/
theorem listing_covers_probing {t : Tree} {fs : FileSystem} {parent : Address}
    (hplain : plainComponent parent.controlType = true) (hdepth : parent.zones.length < maxDepth) :
    (∀ v, t.zoneIndices fs parent = .ok v → t.Covers fs parent v) ∧
      (t.zoneExists fs parent ≠ .ok true → t.Vacant fs parent) := by
  have hproper := Address.refusal?_of_plain hplain (Nat.le_of_lt hdepth)
  exact ⟨fun v hv => Tree.covers_zoneIndices hdepth hv,
    fun h => Tree.vacant_of_not_exists hproper hdepth h⟩

/-- A control type `pkg0` with a zone, and after a gap a link to that zone. -/
def Tree.gapped : FileSystem where
  nodes :=
    let all : Permissions := ⟨true, true, true⟩
    #[.directory ((Directory.empty all 0).insert (.text "class") 1 (.refl true)),
      .directory ((Directory.empty all 0).insert (.text "pkg0") 2 (.refl true)),
      .directory (((Directory.empty all 1).insert (.text "pkg0:0") 3 (.refl true)).insert
        (.text "pkg0:2") 4 (.refl true)),
      .directory (Directory.empty all 2),
      .link "pkg0:0"]
  top := 0
  current := 0

/-- The link after the gap is listed, though only the zone before it is counted. A control
type that does not exist has no zones. -/
theorem listing_covers_probing_gapped :
    let t : Tree := { root := "/class" }
    let a : Address := { controlType := "pkg0" }
    let missing : Address := { controlType := "pkg1" }
    (t.zoneIndices Tree.gapped a = .ok [0, 2] ∧ t.zoneCount Tree.gapped a = .ok 1 ∧
      t.zoneExists Tree.gapped (a.child 2) = .ok true ∧ t.Covers Tree.gapped a [0, 2]) ∧
    (t.zoneExists Tree.gapped missing = .ok false ∧ t.Vacant Tree.gapped missing) := by
  intro t a missing
  have hpath : t.zonePath a = .ok "/class/pkg0" := by decide +kernel
  have hdirectory : Tree.gapped.isDirectory "/class/pkg0" = true := by decide +kernel
  have hnames : Tree.gapped.subdirectories "/class/pkg0" = .ok [.text "pkg0:2", .text "pkg0:0"] := by
    decide +kernel
  have hshown : [Name.text "pkg0:2", .text "pkg0:0"].filterMap (indexAfter? a.childPrefix) =
      [2, 0] := by
    decide +kernel
  have hlisted : t.zoneIndices Tree.gapped a = .ok [0, 2] := by
    simp only [Tree.zoneIndices, hpath, hdirectory, hnames, hshown, if_true]
    simp [List.mergeSort]
  have habsent : t.zoneExists Tree.gapped missing = .ok false := by decide +kernel
  have hcovers := (@listing_covers_probing t Tree.gapped a (by decide) (by decide)).1
  have hvacant := (@listing_covers_probing t Tree.gapped missing (by decide) (by decide)).2
  exact ⟨⟨hlisted, by decide +kernel, by decide +kernel, hcovers _ hlisted⟩, habsent,
    hvacant (by rw [habsent]; simp)⟩

end PowerZones
