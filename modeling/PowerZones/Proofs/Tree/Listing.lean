import PowerZones.Proofs.Files.Listing
import PowerZones.Proofs.Tree.Address
import PowerZones.Tree.Census
import Mathlib.Data.List.Pairwise
import Mathlib.Data.List.Sort

/-!
# Listing zones and probing them

A listing reads the index of a zone out of the name of its directory, and reads
more numerals than the names of zones are written with: a leading plus sign and
leading zeros are let pass. So a listing can show a zone that does not exist, or
one that exists twice.

* **`indexAfter?_child`**: the name of a zone's directory shows its index.
* **`Tree.ListsZones`** is what a listing is to be, **`Tree.Canonical`** the
  condition on the names in the directory, and **`Tree.listsZones_iff`** says that
  a listing is so just under that condition.
-/

namespace PowerZones

variable {t : Tree} {fs : FileSystem} {parent : Address} {path : String} {names : List Name}
  {v : List UInt32} {i : UInt32}

/-- The name of the directory of a zone shows its index. -/
theorem indexAfter?_child (a : Address) (i : UInt32) :
    indexAfter? a.childPrefix (.text (a.child i).directoryName) = some i := by
  have hafter : afterPrefix? a.childPrefix.toList (a.child i).directoryName.toList =
      some (Nat.repr i.toNat).toList := by
    rw [Address.directoryName_child, String.toList_append, afterPrefix?,
      if_pos (List.isPrefixOf_iff_prefix.mpr (List.prefix_append _ _)), List.drop_left]
  simp only [indexAfter?, Name.text?, Option.bind_eq_bind, Option.bind_some, hafter,
    Numeral.index?_repr]

/-- Where every name occurs once, every index is shown once just if no two names
show the same. -/
theorem nodup_filterMap_iff {α β : Type} {f : α → Option β} {as : List α}
    (hnodup : as.Nodup) : (as.filterMap f).Nodup ↔
      ∀ a ∈ as, ∀ b ∈ as, ∀ i, f a = some i → f b = some i → a = b := by
  rw [List.Nodup, List.pairwise_filterMap]
  constructor
  · intro hpairwise a ha b hb i hai hbi
    by_contra hne
    -- being apart is symmetric, so the order of the two does not matter
    have : Std.Symm fun a b : α => ∀ i, f a = some i → ∀ j, f b = some j → i ≠ j :=
      ⟨fun a b h i hi j hj heq => h j hj i hi heq.symm⟩
    exact hpairwise.forall ha hb hne i hai i hbi rfl
  · intro honce
    refine hnodup.imp_of_mem fun {a b} ha hb hne i hi j hj heq => hne ?_
    exact honce a ha b hb i hi (heq ▸ hj)

namespace Tree

/-- The directory of an address can be searched, and a level may be below it. -/
structure Searchable (t : Tree) (fs : FileSystem) (parent : Address) (path : String) : Prop where
  depth : parent.zones.length < maxDepth
  zonePath : t.zonePath parent = .ok path
  search : ∃ id d, fs.locate true path = .ok id ∧ fs.search .owner id = .ok d

/-- A listing is ascending, without an index twice, and every index is that of a
zone that exists. -/
structure ListsZones (t : Tree) (fs : FileSystem) (parent : Address) (v : List UInt32) :
    Prop where
  ascending : v.Pairwise (· < ·)
  exist : ∀ i ∈ v, t.zoneExists fs (parent.child i) = .ok true

/-- Every directory whose name shows an index is called like the zone with that
index. -/
def Canonical (fs : FileSystem) (parent : Address) (path : String) : Prop :=
  ∀ names, fs.subdirectories path = .ok names →
    ∀ name ∈ names, ∀ i, indexAfter? parent.childPrefix name = some i →
      name = .text (parent.child i).directoryName

/-- What a listing comes to: the indices that the names of the directories show,
in order. -/
theorem zoneIndices_eq_ok (h : t.Searchable fs parent path)
    (hv : t.zoneIndices fs parent = .ok v) :
    ∃ names, fs.subdirectories path = .ok names ∧ names.Nodup ∧ v.Pairwise (· ≤ ·) ∧
      v.Perm (names.filterMap (indexAfter? parent.childPrefix)) := by
  obtain ⟨id, d, hid, hsearch⟩ := h.search
  have hd := FileSystem.directory?_of_search hsearch
  have hdirectory : fs.isDirectory path = true :=
    FileSystem.isDirectory_iff.mpr ⟨id, hid, by rw [hd]; rfl⟩
  simp only [zoneIndices, h.zonePath, hdirectory, if_true] at hv
  cases hnames : fs.subdirectories path with
  | error why => rw [hnames] at hv; cases hv
  | ok names =>
    rw [hnames] at hv
    obtain rfl := Except.ok.inj hv
    exact ⟨names, rfl, FileSystem.nodup_subdirectories hid hd hnames, List.pairwise_mergeSort' _ _,
      List.mergeSort_perm _ _⟩

/-- A zone exists just if the listing of the directory above shows its name. -/
theorem zoneExists_iff_mem (h : t.Searchable fs parent path)
    (hroom : (join path (parent.child i).directoryName).utf8ByteSize < maxPathSize)
    (hnames : fs.subdirectories path = .ok names) :
    t.zoneExists fs (parent.child i) = .ok true ↔
      .text (parent.child i).directoryName ∈ names := by
  obtain ⟨id, d, hid, hsearch⟩ := h.search
  have hchild := zonePath_child h.zonePath h.depth hroom
  rw [FileSystem.mem_subdirectories_iff (plainName_of_zonePath hchild) hroom hid hsearch hnames]
  simp only [zoneExists, hchild, bind, Except.bind, pure, Except.pure, Except.ok.injEq]

/-- A listing is ascending and shows only zones that exist just if every directory
whose name shows an index is called like the zone with that index. -/
theorem listsZones_iff (h : t.Searchable fs parent path) (hv : t.zoneIndices fs parent = .ok v)
    (hroom : ∀ i ∈ v, (join path (parent.child i).directoryName).utf8ByteSize < maxPathSize) :
    t.ListsZones fs parent v ↔ Canonical fs parent path := by
  obtain ⟨names, hnames, hnodup, hsorted, hperm⟩ := zoneIndices_eq_ok h hv
  have hmem {i : UInt32} : i ∈ v ↔ ∃ name ∈ names, indexAfter? parent.childPrefix name = some i :=
    hperm.mem_iff.trans List.mem_filterMap
  have honce := nodup_filterMap_iff (f := indexAfter? parent.childPrefix) hnodup
  rw [← hperm.nodup_iff] at honce
  constructor
  · rintro ⟨hascending, hexist⟩ names' hnames' name hname i hi
    obtain rfl := Except.ok.inj (hnames.symm.trans hnames')
    -- the zone that the name shows exists, so its own name is there as well
    have hiv := hmem.mpr ⟨name, hname, hi⟩
    have hown := (zoneExists_iff_mem h (hroom i hiv) hnames).mp (hexist i hiv)
    have hdistinct : v.Nodup := hascending.imp fun hlt => UInt32.ne_of_lt hlt
    exact honce.mp hdistinct name hname _ hown i hi (indexAfter?_child parent i)
  · intro hcanonical
    -- an index tells the name it was shown by, so no two names show the same
    have hdistinct : v.Nodup := by
      refine honce.mpr fun a ha b hb i hai hbi => ?_
      rw [hcanonical names hnames a ha i hai, hcanonical names hnames b hb i hbi]
    refine ⟨?_, fun i hi => ?_⟩
    · refine (hsorted.and hdistinct).imp fun ⟨hle, hne⟩ => ?_
      exact UInt32.lt_of_le_of_ne hle hne
    · obtain ⟨name, hname, hshows⟩ := hmem.mp hi
      rw [hcanonical names hnames name hname i hshows] at hname
      exact (zoneExists_iff_mem h (hroom i hi) hnames).mpr hname

/-! ## One zone -/

/-- A file system with a control type `pkg0`, in whose directory there is one
directory, of the given name. -/
def lone (name : String) (h : (Name.text name).proper = true) : FileSystem where
  nodes :=
    let all : Permissions := ⟨true, true, true⟩
    #[.directory ((Directory.empty all 0).insert (.text "class") 1 (by decide)),
      .directory ((Directory.empty all 0).insert (.text "pkg0") 2 (by decide)),
      .directory ((Directory.empty all 1).insert (.text name) 3 h),
      .directory (Directory.empty all 2)]
  top := 0
  current := 0

/-- The directory of the control type can be searched, whatever is in it. -/
private theorem searchable_lone (name : String) (h : (Name.text name).proper = true) :
    Searchable { root := "/class" } (lone name h) { controlType := "pkg0" } "/class/pkg0" :=
  ⟨by decide, by decide +kernel, 2, _, rfl, rfl⟩

/-- One zone under its own name is listed, and exists. -/
theorem listsZones_lone :
    let fs := lone "pkg0:1" (by decide)
    zoneIndices { root := "/class" } fs { controlType := "pkg0" } = .ok [1] ∧
      ListsZones { root := "/class" } fs { controlType := "pkg0" } [1] := by
  have hv : zoneIndices { root := "/class" } (lone "pkg0:1" (by decide))
      { controlType := "pkg0" } = .ok [1] := by decide +kernel
  have hnames : (lone "pkg0:1" (by decide)).subdirectories "/class/pkg0" =
      .ok [.text "pkg0:1"] := by decide +kernel
  have hshows : indexAfter? (Address.childPrefix { controlType := "pkg0" }) (.text "pkg0:1") =
      some 1 := by decide +kernel
  have hroom (i : UInt32) (hi : i ∈ [1]) : (join "/class/pkg0" (Address.directoryName
      (Address.child { controlType := "pkg0" } i))).utf8ByteSize < maxPathSize := by
    obtain rfl := List.mem_singleton.mp hi
    decide +kernel
  refine ⟨hv, (listsZones_iff (searchable_lone _ _) hv hroom).mpr ?_⟩
  intro names hnames' name hname i hi
  obtain rfl := Except.ok.inj (hnames.symm.trans hnames')
  obtain rfl := List.mem_singleton.mp hname
  obtain rfl := Option.some.inj (hshows.symm.trans hi)
  decide +kernel

/-- A directory whose name shows an index with a sign is listed as a zone that
does not exist. -/
theorem not_listsZones_plus :
    let fs := lone "pkg0:+1" (by decide)
    Searchable { root := "/class" } fs { controlType := "pkg0" } "/class/pkg0" ∧
      zoneIndices { root := "/class" } fs { controlType := "pkg0" } = .ok [1] ∧
      zoneExists { root := "/class" } fs { controlType := "pkg0", zones := [1] } = .ok false ∧
      ¬ListsZones { root := "/class" } fs { controlType := "pkg0" } [1] := by
  have hmissing : zoneExists { root := "/class" } (lone "pkg0:+1" (by decide))
      { controlType := "pkg0", zones := [1] } = .ok false := by decide +kernel
  refine ⟨searchable_lone _ _, by decide +kernel, hmissing, fun hlists => ?_⟩
  have hexists := hlists.exist 1 (by decide)
  rw [show Address.child { controlType := "pkg0" } 1 = { controlType := "pkg0", zones := [1] } from
    rfl, hmissing] at hexists
  cases hexists

end Tree

end PowerZones
