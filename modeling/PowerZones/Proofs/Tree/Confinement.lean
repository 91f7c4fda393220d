import PowerZones.Proofs.Tree.Injectivity
import PowerZones.Proofs.Tree.Refusal

/-!
# Paths are confined

A path is put together from texts: a root that may be any, and names after it. Nothing in
it is a step up or starts again from the top, so that it stays below the root, and whether
there is a path at all is a question of its length.

* **`DecidedBySize`** is what asking for a path comes to where nothing is refused;
* **`Below`** says that a path is a root and so many plain names, as text and as a route,
  and **`Below.of_plain`** that joining plain names does no more;
* **`parentDirectory`**, **`parentDirectory_join`**: the path without its last name;
* **`Tree.zonePath_of_child`**, **`Tree.exists_zonePath_of_prefix`**: a path has the paths
  of all addresses above in it;
* **`paths_are_confined`** puts them together.
-/

namespace PowerZones

/-! ## Length -/

/-- There is a path just if the whole of it leaves room for a terminator. -/
structure DecidedBySize (path : String) (result : Except Failure String) : Prop where
  ok_iff : ∀ p, result = .ok p ↔ p = path ∧ path.utf8ByteSize < maxPathSize
  long : maxPathSize ≤ path.utf8ByteSize →
    ∃ size, result = .error (.pathTooLong size) ∧ maxPathSize ≤ size

/-- Where a path fails for nothing but its length, its length decides. -/
theorem DecidedBySize.of_error {path : String} {result : Except Failure String}
    (hok : ∀ p, result = .ok p ↔ p = path ∧ path.utf8ByteSize < maxPathSize)
    (herror : ∀ e, result = .error e → ∃ size, e = .pathTooLong size ∧ maxPathSize ≤ size) :
    DecidedBySize path result where
  ok_iff := hok
  long hlong := by
    cases hresult : result with
    | ok p => exact absurd ((hok p).mp hresult).2 (Nat.not_lt.mpr hlong)
    | error e =>
      obtain ⟨size, rfl, hsize⟩ := herror e hresult
      exact ⟨size, rfl, hsize⟩

namespace Tree

variable {t : Tree} {a : Address} {attr : Attribute}

theorem decidedBySize_zonePath (hproper : a.refusal? = none) :
    DecidedBySize (t.wholePath a) (t.zonePath a) := by
  refine .of_error (fun p => ?_) fun e h => (zonePath_eq_error hproper h).1
  rw [zonePath_of_proper hproper, checkSize_eq_ok]
  constructor <;> (rintro ⟨rfl, hsize⟩; exact ⟨rfl, hsize⟩)

/-- The lengths of an address's path and of an attribute's are both checked, but the
second check decides: a path is no shorter than its beginning. -/
theorem decidedBySize_attributePath (hproper : a.refusal? = none)
    (hattr : attr.ofControlType = true → a.zones = []) :
    DecidedBySize (join (t.wholePath a) attr.fileName) (t.attributePath a attr) := by
  have hlacks : ¬(attr.ofControlType = true ∧ a.zones ≠ []) := fun h => h.2 (hattr h.1)
  have hrefusal : attr.refusal? a = none := by rw [Attribute.refusal?, if_neg hlacks, hproper]
  refine .of_error (fun p => ?_) fun e h => (attributePath_eq_error hrefusal h).1
  have hzone := (decidedBySize_zonePath (t := t) hproper).ok_iff
  rw [attributePath_eq_ok]
  constructor
  · rintro ⟨-, directory, hdirectory, rfl, hsize⟩
    obtain ⟨rfl, -⟩ := (hzone directory).mp hdirectory
    exact ⟨rfl, hsize⟩
  · rintro ⟨rfl, hsize⟩
    have hshort := Nat.lt_of_le_of_lt (utf8ByteSize_le_join _ _) hsize
    exact ⟨hattr, _, (hzone _).mpr ⟨rfl, hshort⟩, rfl, hsize⟩

end Tree

/-! ## Below a root -/

theorem prefix_join (path name : String) : path.toList <+: (join path name).toList := by
  unfold join
  split <;> simp only [String.toList_append, List.append_assoc, List.prefix_append]

/-- A path is a root and after it so many names, each of which stands for one step down:
the route goes where that of the root does, and then only from entry to entry. -/
structure Below (root path : String) (names : List String) : Prop where
  joined : names.foldl join root = path
  plain : ∀ name ∈ names, PlainName name
  begins : root.toList <+: path.toList
  absolute : (Route.ofText path).absolute = (Route.ofText root).absolute
  segments : (Route.ofText path).segments =
    (Route.components root.toList).map Segment.ofText ++ names.map fun name => .entry (.text name)

section Joining

variable {root : String} {names : List String}

theorem prefix_foldl_join (root : String) (names : List String) :
    root.toList <+: (names.foldl join root).toList := by
  induction names generalizing root with
  | nil => exact List.prefix_rfl
  | cons name rest ih => exact (prefix_join root name).trans (ih (join root name))

theorem absolute_foldl_join (hplain : ∀ name ∈ names, PlainName name) :
    (Route.ofText (names.foldl join root)).absolute = (Route.ofText root).absolute := by
  induction names generalizing root with
  | nil => rfl
  | cons name rest ih =>
    rw [List.foldl_cons, ih fun n hn => hplain n (List.mem_cons_of_mem _ hn)]
    exact absolute_join (hplain name List.mem_cons_self)

/-- Plain names joined to a root stay below it, whatever the root is. -/
theorem Below.of_plain (hne : names ≠ []) (hplain : ∀ name ∈ names, PlainName name) :
    Below root (names.foldl join root) names where
  joined := rfl
  plain := hplain
  begins := prefix_foldl_join root names
  absolute := absolute_foldl_join hplain
  segments := by
    obtain ⟨above, name, rfl⟩ := (List.eq_nil_or_concat' names).resolve_left hne
    have habove (n : String) (hn : n ∈ above) : PlainName n := hplain n (by simp [hn])
    have hentries : (above.map String.toList).map Segment.ofText =
        above.map fun name => .entry (.text name) := by
      rw [List.map_map]
      exact List.map_congr_left fun n hn => (habove n hn).segment
    rw [List.foldl_append, List.foldl_cons, List.foldl_nil,
      Route.segments_join _ (hplain name (by simp)), Route.components_foldl_join root habove,
      List.map_append, hentries, List.map_append, List.append_assoc]
    rfl

end Joining

/-! ## One level up -/

/-- The text of a path before its last slash. -/
def parentDirectory (path : String) : String :=
  String.ofList ((path.toList.reverse.dropWhile (· ≠ '/')).drop 1).reverse

/-- Without the name that was put after it, a path is what it was before. -/
theorem parentDirectory_join {path name : String} (hpath : OpenPath path)
    (hname : PlainName name) : parentDirectory (join path name) = path := by
  have hreverse : (join path name).toList.reverse =
      name.toList.reverse ++ '/' :: path.toList.reverse := by
    simp [hpath.join_eq]
  have hdrop : (join path name).toList.reverse.dropWhile (· ≠ '/') = '/' :: path.toList.reverse := by
    rw [hreverse, List.dropWhile_append_of_pos, List.dropWhile_cons_of_neg (by simp)]
    intro c hc
    have hne : c ≠ '/' := fun heq => hname.slash (heq ▸ List.mem_reverse.mp hc)
    exact decide_eq_true hne
  rw [parentDirectory, hdrop, List.drop_one, List.tail_cons, List.reverse_reverse,
    String.ofList_toList]

namespace Tree

variable {t : Tree} {a : Address} {attr : Attribute} {index : UInt32} {path : String}

theorem below_zonePath (h : t.zonePath a = .ok path) : Below t.root path a.directoryNames := by
  obtain ⟨hplain, -, rfl, -⟩ := zonePath_eq_ok.mp h
  have hne : a.directoryNames ≠ [] := by simp [← List.length_pos_iff, a.length_directoryNames]
  exact .of_plain hne fun _ => Address.plainName_of_mem hplain

theorem below_attributePath (h : t.attributePath a attr = .ok path) :
    Below t.root path (a.directoryNames ++ [attr.fileName]) := by
  obtain ⟨-, directory, hdirectory, rfl, -⟩ := attributePath_eq_ok.mp h
  obtain ⟨hplain, -, rfl, -⟩ := zonePath_eq_ok.mp hdirectory
  have hall : ∀ name ∈ a.directoryNames ++ [attr.fileName], PlainName name := by
    intro name hname
    rcases List.mem_append.mp hname with hname | hname
    · exact Address.plainName_of_mem hplain hname
    · exact List.mem_singleton.mp hname ▸ attr.plainName
  have hbelow : Below t.root _ _ := .of_plain (by simp) hall
  rwa [List.foldl_append] at hbelow

/-- A zone's path without its last name is that of the address above. -/
theorem zonePath_of_child (h : t.zonePath (a.child index) = .ok path) :
    t.zonePath a = .ok (parentDirectory path) := by
  obtain ⟨above, habove, rfl⟩ := exists_zonePath_of_child h
  rw [parentDirectory_join (openPath_of_zonePath habove) (plainName_of_zonePath h), habove]

/-- An attribute's path without the file name is that of its address. -/
theorem zonePath_of_attribute (h : t.attributePath a attr = .ok path) :
    t.zonePath a = .ok (parentDirectory path) := by
  obtain ⟨-, directory, hdirectory, rfl, -⟩ := attributePath_eq_ok.mp h
  rw [parentDirectory_join (openPath_of_zonePath hdirectory) attr.plainName, hdirectory]

/-- Where an address has a path, so has every address on the way to it, by induction from
the last level up. -/
theorem exists_zonePath_of_prefix {zones : List UInt32} (hzones : zones <+: a.zones)
    (h : t.zonePath a = .ok path) :
    ∃ above, t.zonePath { a with zones := zones } = .ok above ∧ above.toList <+: path.toList := by
  induction a using Address.induction generalizing path with
  | control name =>
    obtain rfl := List.prefix_nil.mp hzones
    exact ⟨path, h, List.prefix_rfl⟩
  | child parent index ih =>
    rcases List.prefix_concat_iff.mp hzones with rfl | hzones
    · exact ⟨path, h, List.prefix_rfl⟩
    · obtain ⟨parentPath, hparent, rfl⟩ := exists_zonePath_of_child h
      obtain ⟨above, habove, hprefix⟩ := ih hzones hparent
      exact ⟨above, habove, hprefix.trans (prefix_join _ _)⟩

end Tree

/-- **Paths are confined, nested and decided by length alone.** Where nothing is refused,
an address and an attribute have a path just if it is short enough. Each is the root and
below it one plain name for the control type, one for each level and one for the file. Without
its last name it is the path of the address above or that the attribute is at, and every
address on the way has a path. -/
theorem paths_are_confined (t : Tree) :
    (∀ a, plainComponent a.controlType = true → a.zones.length ≤ maxDepth →
      DecidedBySize (t.wholePath a) (t.zonePath a) ∧
      ∀ attr, (attr.ofControlType = true → a.zones = []) →
        DecidedBySize (join (t.wholePath a) attr.fileName) (t.attributePath a attr)) ∧
    (∀ a path, t.zonePath a = .ok path →
      Below t.root path a.directoryNames ∧ a.directoryNames.length = 1 + a.zones.length) ∧
    (∀ a attr path, t.attributePath a attr = .ok path →
      Below t.root path (a.directoryNames ++ [attr.fileName])) ∧
    (∀ a index path, t.zonePath (a.child index) = .ok path →
      t.zonePath a = .ok (parentDirectory path)) ∧
    (∀ a attr path, t.attributePath a attr = .ok path →
      t.zonePath a = .ok (parentDirectory path) ∧
      ∀ zones, zones <+: a.zones → ∃ above, t.zonePath { a with zones := zones } = .ok above ∧
        above.toList <+: path.toList) := by
  refine ⟨fun a hplain hdepth => ?_, fun a path h => ⟨Tree.below_zonePath h, ?_⟩,
    fun a attr path h => Tree.below_attributePath h, fun a index path h => Tree.zonePath_of_child h,
    fun a attr path h => ⟨Tree.zonePath_of_attribute h, fun zones hzones => ?_⟩⟩
  · have hproper := Address.refusal?_of_plain hplain hdepth
    exact ⟨Tree.decidedBySize_zonePath hproper,
      fun attr => Tree.decidedBySize_attributePath hproper⟩
  · rw [a.length_directoryNames, Nat.add_comm]
  · obtain ⟨-, directory, hdirectory, rfl, -⟩ := Tree.attributePath_eq_ok.mp h
    obtain ⟨above, habove, hprefix⟩ := Tree.exists_zonePath_of_prefix hzones hdirectory
    exact ⟨above, habove, hprefix.trans (prefix_join _ _)⟩

/-- Below a root that ends in a slash: the path of a zone's name file, that of the zone and
that of the zone above it. -/
theorem paths_are_confined_nested :
    let t : Tree := { root := "/r/" }
    let parent : Address := { controlType := "pkg0", zones := [3] }
    let a : Address := { controlType := "pkg0", zones := [3, 1] }
    (plainComponent a.controlType = true ∧ a.zones.length ≤ maxDepth ∧
      DecidedBySize (t.wholePath a) (t.zonePath a) ∧
      DecidedBySize (join (t.wholePath a) "name") (t.attributePath a (.zone .name))) ∧
    (t.zonePath a = .ok "/r/pkg0/pkg0:3/pkg0:3:1" ∧
      Below "/r/" "/r/pkg0/pkg0:3/pkg0:3:1" ["pkg0", "pkg0:3", "pkg0:3:1"] ∧
      t.zonePath parent = .ok "/r/pkg0/pkg0:3") ∧
    (t.attributePath a (.zone .name) = .ok "/r/pkg0/pkg0:3/pkg0:3:1/name" ∧
      Below "/r/" "/r/pkg0/pkg0:3/pkg0:3:1/name" ["pkg0", "pkg0:3", "pkg0:3:1", "name"] ∧
      ∃ above, t.zonePath parent = .ok above ∧
        above.toList <+: "/r/pkg0/pkg0:3/pkg0:3:1/name".toList) := by
  intro t parent a
  have hplain : plainComponent a.controlType = true := by decide
  have hdepth : a.zones.length ≤ maxDepth := by decide
  have hzone : t.zonePath a = .ok "/r/pkg0/pkg0:3/pkg0:3:1" := by decide +kernel
  have hfile : t.attributePath a (.zone .name) = .ok "/r/pkg0/pkg0:3/pkg0:3:1/name" := by
    decide +kernel
  obtain ⟨hdecided, hzones, hfiles, hup, habove⟩ := paths_are_confined t
  obtain ⟨hdecidedZone, hdecidedFile⟩ := hdecided a hplain hdepth
  refine ⟨⟨hplain, hdepth, hdecidedZone, hdecidedFile (.zone .name) (by decide)⟩,
    ⟨hzone, (hzones a _ hzone).1, ?_⟩, hfile, hfiles a _ _ hfile, ?_⟩
  · exact (hup parent 1 _ hzone).trans (by decide +kernel)
  · exact (habove a _ _ hfile).2 [3] (by decide)

end PowerZones
