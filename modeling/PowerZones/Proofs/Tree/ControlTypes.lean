import PowerZones.Proofs.Text.ByteOrder
import PowerZones.Proofs.Tree.Listing
import PowerZones.Proofs.Tree.Probing
import PowerZones.Proofs.Tree.Refusal

/-!
# The control types that are listed

The listing of the class directory is filtered twice: by what is a directory or leads to
one, and by what may be the name of a control type. What is left is just what is found
under its own path, except for zones, whose names have a colon.

* **`controlTypeName?_eq_some_iff`**: a name that is kept is kept as it is;
* **`Tree.mem_controlTypes_iff`**: a control type is listed just if it exists;
* **`Tree.ListsControlTypes`** is what a listing is to be, and
  **`control_types_are_listed_exactly`** says that it is so, wherever the root is.
-/

namespace PowerZones

/-- A name is taken for a control type as it is, if it is a plain component without a
colon. -/
theorem controlTypeName?_eq_some_iff {name : Name} {s : String} :
    controlTypeName? name = some s ↔
      name = .text s ∧ ':' ∉ s.toList ∧ plainComponent s = true := by
  cases name with
  | raw bytes => simp [controlTypeName?, Name.text?]
  | text u =>
    simp only [controlTypeName?, Name.text?, Option.bind_eq_bind, Option.bind_some, Name.text.injEq]
    by_cases hbad : ':' ∈ u.toList ∨ plainComponent u = false
    · rw [if_pos (by simpa using hbad)]
      constructor
      · intro hnone
        cases hnone
      · rintro ⟨rfl, hcolon, hplain⟩
        simp [hcolon, hplain] at hbad
    · rw [if_neg (by simpa using hbad)]
      have hgood : ':' ∉ u.toList ∧ plainComponent u = true := by simpa using hbad
      constructor
      · intro hsame
        obtain rfl := Option.some.inj hsame
        exact ⟨rfl, hgood⟩
      · rintro ⟨rfl, -, -⟩
        rfl

namespace Tree

variable {t : Tree} {fs : FileSystem} {v : List String} {s path : String} {id : NodeId}
  {d : Directory}

/-- A listing is ascending in the bytes of the names, without a name twice. A name without
a colon, if it has a path, is listed just if there is a control type of that name, and every
name that is listed may be that of a control type. -/
structure ListsControlTypes (t : Tree) (fs : FileSystem) (v : List String) : Prop where
  ascending : v.Pairwise fun s u => Text.utf8 s < Text.utf8 u
  mem_iff : ∀ s path, ':' ∉ s.toList → t.zonePath { controlType := s } = .ok path →
    (s ∈ v ↔ t.controlTypeExists fs s = .ok true)
  accepted : ∀ s ∈ v, checkControlType s = .ok () ∧ ':' ∉ s.toList

/-- What a listing comes to: the directories with a suitable name, in order. -/
theorem controlTypes_eq_ok (h : t.controlTypes fs = .ok v) :
    ∃ names, fs.subdirectories t.root = .ok names ∧ v.Pairwise (· ≤ ·) ∧
      v.Perm (names.filterMap controlTypeName?) := by
  unfold controlTypes at h
  cases hnames : fs.subdirectories t.root with
  | error why => rw [hnames] at h; cases h
  | ok names =>
    rw [hnames] at h
    obtain rfl := Except.ok.inj h
    exact ⟨names, rfl, List.pairwise_mergeSort' _ _, List.mergeSort_perm _ _⟩

/-- What is listed has a suitable name. -/
theorem accepted_of_mem_controlTypes (h : t.controlTypes fs = .ok v) (hs : s ∈ v) :
    plainComponent s = true ∧ ':' ∉ s.toList := by
  obtain ⟨names, -, -, hperm⟩ := controlTypes_eq_ok h
  obtain ⟨name, -, hkept⟩ := List.mem_filterMap.mp (hperm.mem_iff.mp hs)
  obtain ⟨-, hcolon, hplain⟩ := controlTypeName?_eq_some_iff.mp hkept
  exact ⟨hplain, hcolon⟩

/-- A control type is listed just if it exists. -/
theorem mem_controlTypes_iff (hid : fs.locate true t.root = .ok id)
    (hsearch : fs.search .owner id = .ok d) (h : t.controlTypes fs = .ok v)
    (hcolon : ':' ∉ s.toList) (hpath : t.zonePath { controlType := s } = .ok path) :
    s ∈ v ↔ t.controlTypeExists fs s = .ok true := by
  obtain ⟨names, hnames, -, hperm⟩ := controlTypes_eq_ok h
  obtain ⟨hplain, -, rfl, hsize⟩ := zonePath_eq_ok.mp hpath
  have hlisted : s ∈ v ↔ .text s ∈ names := by
    rw [hperm.mem_iff, List.mem_filterMap]
    constructor
    · rintro ⟨name, hname, hkept⟩
      obtain ⟨rfl, -⟩ := controlTypeName?_eq_some_iff.mp hkept
      exact hname
    · exact fun hname => ⟨_, hname, controlTypeName?_eq_some_iff.mpr ⟨rfl, hcolon, hplain⟩⟩
  have hname : PlainName s := Address.plainName (a := { controlType := s }) hplain
  rw [hlisted, FileSystem.mem_subdirectories_iff hname hsize hid hsearch hnames, controlTypeExists,
    zoneExists_eq_ok_iff]
  constructor
  · exact fun hdirectory => ⟨_, hpath, hdirectory⟩
  · rintro ⟨path', hpath', hdirectory⟩
    obtain rfl := Except.ok.inj (hpath.symm.trans hpath')
    exact hdirectory

/-- The names that are listed are all different, since those of the entries are. -/
theorem nodup_controlTypes (hid : fs.locate true t.root = .ok id)
    (hd : fs.directory? id = some d) (h : t.controlTypes fs = .ok v) : v.Nodup := by
  obtain ⟨names, hnames, -, hperm⟩ := controlTypes_eq_ok h
  refine hperm.nodup_iff.mpr ((nodup_filterMap_iff
    (FileSystem.nodup_subdirectories hid hd hnames)).mpr fun a _ b _ s ha hb => ?_)
  rw [(controlTypeName?_eq_some_iff.mp ha).1, (controlTypeName?_eq_some_iff.mp hb).1]

end Tree

/-- **Control types are listed exactly.** Where the root can be searched, a listing shows
those control types that exist, each once and in the order of bytes, and nothing that is
no name of a control type. -/
theorem control_types_are_listed_exactly {t : Tree} {fs : FileSystem} {id : NodeId}
    {d : Directory} {v : List String} (hid : fs.locate true t.root = .ok id)
    (hsearch : fs.search .owner id = .ok d) (hv : t.controlTypes fs = .ok v) :
    t.ListsControlTypes fs v where
  ascending := by
    obtain ⟨-, -, hsorted, -⟩ := Tree.controlTypes_eq_ok hv
    have hnodup := Tree.nodup_controlTypes hid (FileSystem.directory?_of_search hsearch) hv
    refine (hsorted.and hnodup).imp fun ⟨hle, hne⟩ => ?_
    exact Text.utf8_lt_utf8 (lt_of_le_of_ne hle hne)
  mem_iff _ _ hcolon hpath := Tree.mem_controlTypes_iff hid hsearch hv hcolon hpath
  accepted s hs := by
    obtain ⟨hplain, hcolon⟩ := Tree.accepted_of_mem_controlTypes hv hs
    exact ⟨if_pos hplain, hcolon⟩

/-- A class directory that shows a control type, one of its zones, a link to the control
type, and a name that no control type has. -/
def Tree.mixedClass : FileSystem where
  nodes :=
    let all : Permissions := ⟨true, true, true⟩
    let shown := ((((Directory.empty all 0).insert (.text "pkg0") 2 (.refl true)).insert
      (.text "pkg0:0") 3 (.refl true)).insert (.text "dram") 4 (.refl true)).insert
      (.text "a.b") 5 (.refl true)
    #[.directory ((Directory.empty all 0).insert (.text "class") 1 (.refl true)),
      .directory shown,
      .directory (Directory.empty all 1),
      .directory (Directory.empty all 1),
      .link "pkg0",
      .directory (Directory.empty all 1)]
  top := 0
  current := 0

/-- With a slash at the end of the root, the control type and the link to it are listed. -/
theorem control_types_are_listed_exactly_mixed :
    let t : Tree := { root := "/class/" }
    (Tree.mixedClass.locate true t.root = .ok 1 ∧
      t.controlTypes Tree.mixedClass = .ok ["dram", "pkg0"]) ∧
    t.ListsControlTypes Tree.mixedClass ["dram", "pkg0"] := by
  intro t
  have hid : Tree.mixedClass.locate true t.root = .ok 1 := by decide +kernel
  have hnames : Tree.mixedClass.subdirectories t.root =
      .ok [.text "a.b", .text "dram", .text "pkg0:0", .text "pkg0"] := by
    decide +kernel
  have hkept : [Name.text "a.b", .text "dram", .text "pkg0:0", .text "pkg0"].filterMap
      controlTypeName? = ["dram", "pkg0"] := by
    decide +kernel
  have hv : t.controlTypes Tree.mixedClass = .ok ["dram", "pkg0"] := by
    simp only [Tree.controlTypes, hnames, hkept]
    rw [List.mergeSort_of_pairwise (by decide +kernel)]
  exact ⟨⟨hid, hv⟩, control_types_are_listed_exactly hid rfl hv⟩

end PowerZones
