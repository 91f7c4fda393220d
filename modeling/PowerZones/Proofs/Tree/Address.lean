import PowerZones.Tree.Address
import PowerZones.Proofs.Files.Route
import PowerZones.Proofs.Text.Digits

/-!
# Paths of zones

The path of a zone below an address is the path of that address and one plain
name more.

* **`Address.plainName`**: the name of a directory stands for one step down.
* **`Tree.zonePath_eq_ok`** says when an address has a path, and which.
* **`Tree.zonePath_child`**, **`Tree.exists_zonePath_of_child`** relate the paths of an
  address and of a zone below.
-/

namespace PowerZones

namespace Address

variable (a : Address) (index : UInt32)

theorem directoryName_child :
    (a.child index).directoryName = a.childPrefix ++ Nat.repr index.toNat := by
  simp only [directoryName, child, childPrefix, List.foldl_append, List.foldl_cons, List.foldl_nil]

/-- The directories on the way to a zone are those on the way to the address
above, and its own. -/
theorem directoryNames_child :
    (a.child index).directoryNames = a.directoryNames ++ [(a.child index).directoryName] := by
  have hlength : (a.child index).zones.length = a.zones.length + 1 := by simp [child]
  have hself : (a.child index).ancestor (a.zones.length + 1) = a.child index := by
    simp only [ancestor, child]
    rw [List.take_of_length_le (by simp)]
  rw [directoryNames, hlength, List.range_succ, List.map_append, List.map_singleton, hself]
  refine congrArg (· ++ _) (List.map_congr_left fun depth hdepth => ?_)
  have hle : depth ≤ a.zones.length := Nat.le_of_lt_succ (List.mem_range.mp hdepth)
  simp only [ancestor, child, List.take_append_of_le_length hle]

/-- The directory of an address is the last on the way to it. -/
theorem directoryNames_eq : ∃ above, a.directoryNames = above ++ [a.directoryName] := by
  have hself : a.ancestor a.zones.length = a := by
    rw [ancestor, List.take_length]
  rw [directoryNames, List.range_succ, List.map_append, List.map_singleton, hself]
  exact ⟨_, rfl⟩

/-- Indices add digits and colons to a name. -/
private theorem mem_foldl_index {c : Char} (zones : List UInt32) (name : String)
    (h : c ∈ (zones.foldl (fun name index => name ++ ":" ++ Nat.repr index.toNat) name).toList) :
    c ∈ name.toList ∨ c = ':' ∨ c.isDigit = true := by
  induction zones generalizing name with
  | nil => exact .inl h
  | cons index rest ih =>
    rcases ih _ h with hc | hc
    · rw [String.toList_append, String.toList_append, List.mem_append, List.mem_append] at hc
      rcases hc with (hc | hc) | hc
      · exact .inl hc
      · exact .inr (.inl (List.mem_singleton.mp hc))
      · rw [Nat.toList_repr] at hc
        exact .inr (.inr (Nat.isDigit_of_mem_toDigits (by decide) (by decide) hc))
    · exact .inr hc

private theorem prefix_foldl_index (zones : List UInt32) (name : String) :
    name.toList <+: (zones.foldl (fun name index => name ++ ":" ++ Nat.repr index.toNat)
      name).toList := by
  induction zones generalizing name with
  | nil => exact List.prefix_rfl
  | cons index rest ih =>
    refine List.IsPrefix.trans ?_ (ih _)
    rw [String.toList_append, String.toList_append, List.append_assoc]
    exact List.prefix_append _ _

variable {a}

/-- The name of a directory stands for one step down. -/
theorem plainName (h : plainComponent a.controlType = true) : PlainName a.directoryName := by
  simp only [plainComponent, Bool.and_eq_true, decide_eq_true_eq, Bool.not_eq_true',
    List.contains_eq_mem, decide_eq_false_iff_not] at h
  obtain ⟨⟨hempty, hdot⟩, hslash⟩ := h
  have hmem {c : Char} (hc : c ∈ a.directoryName.toList) (hcolon : c ≠ ':')
      (hdigit : c.isDigit = false) : c ∈ a.controlType.toList := by
    rcases mem_foldl_index a.zones a.controlType hc with hc | hc | hc
    · exact hc
    · exact absurd hc hcolon
    · rw [hdigit] at hc
      cases hc
  -- digits and colons are no dots, and the control type has none
  have hnodot : '.' ∉ a.directoryName.toList := fun hc => hdot (hmem hc (by decide) (by decide))
  refine ⟨fun hname => ?_, fun hname => ?_, fun hname => ?_,
    fun hc => hslash (hmem hc (by decide) (by decide))⟩
  · have hprefix := prefix_foldl_index a.zones a.controlType
    change a.controlType.toList <+: a.directoryName.toList at hprefix
    rw [hname] at hprefix
    exact hempty (String.toList_eq_nil_iff.mp (List.prefix_nil.mp hprefix))
  · exact hnodot (by rw [hname]; decide)
  · exact hnodot (by rw [hname]; decide)

end Address

namespace Tree

variable {t : Tree} {a : Address} {index : UInt32} {path p : String}

/-- An address has a path where its control type is a plain component, it is not
too deep, and the path is not too long. -/
theorem zonePath_eq_ok : t.zonePath a = .ok path ↔
    plainComponent a.controlType = true ∧ a.zones.length ≤ maxDepth ∧
      a.directoryNames.foldl join t.root = path ∧ path.utf8ByteSize < maxPathSize := by
  unfold zonePath checkControlType checkDepth checkSize
  by_cases hplain : plainComponent a.controlType = true
  · by_cases hdeep : a.zones.length > maxDepth
    · simp [hplain, hdeep, bind, Except.bind, Nat.not_le.mpr hdeep]
    · by_cases hsize : (a.directoryNames.foldl join t.root).utf8ByteSize ≥ maxPathSize
      · simp only [hplain, hdeep, hsize, if_true, if_false, bind, Except.bind]
        exact ⟨nofun, fun ⟨_, _, hpath, hlt⟩ => absurd hsize (Nat.not_le.mpr (hpath ▸ hlt))⟩
      · simp only [hplain, hdeep, hsize, if_true, if_false, bind, Except.bind, Except.ok.injEq,
          true_and]
        exact ⟨fun hpath => ⟨Nat.not_lt.mp hdeep, hpath, hpath ▸ Nat.not_le.mp hsize⟩,
          fun ⟨_, hpath, _⟩ => hpath⟩
  · simp [hplain, bind, Except.bind]

theorem plainName_of_zonePath (h : t.zonePath a = .ok path) : PlainName a.directoryName :=
  Address.plainName (zonePath_eq_ok.mp h).1

theorem openPath_of_zonePath (h : t.zonePath a = .ok path) : OpenPath path := by
  obtain ⟨above, habove⟩ := a.directoryNames_eq
  obtain ⟨-, -, rfl, -⟩ := zonePath_eq_ok.mp h
  rw [habove, List.foldl_append]
  exact OpenPath.of_join _ (plainName_of_zonePath h)

/-- The path of a zone below an address, unless it is too deep or too long. -/
theorem zonePath_child (h : t.zonePath a = .ok path) (hdepth : a.zones.length < maxDepth)
    (hsize : (join path (a.child index).directoryName).utf8ByteSize < maxPathSize) :
    t.zonePath (a.child index) = .ok (join path (a.child index).directoryName) := by
  obtain ⟨hplain, -, rfl, -⟩ := zonePath_eq_ok.mp h
  refine zonePath_eq_ok.mpr ⟨hplain, ?_, ?_, hsize⟩
  · simpa [Address.child] using Nat.succ_le_of_lt hdepth
  · rw [Address.directoryNames_child, List.foldl_append]
    rfl

/-- Where a zone has a path, the address above has one, and the zone's is one name more. -/
theorem exists_zonePath_of_child {childPath : String}
    (h : t.zonePath (a.child index) = .ok childPath) :
    ∃ path, t.zonePath a = .ok path ∧
      childPath = join path (a.child index).directoryName := by
  obtain ⟨hplain, hdepth, hpath, hsize⟩ := zonePath_eq_ok.mp h
  have hdepth : a.zones.length + 1 ≤ maxDepth := by simpa [Address.child] using hdepth
  rw [Address.directoryNames_child, List.foldl_append] at hpath
  refine ⟨_, zonePath_eq_ok.mpr ⟨hplain, by omega, rfl, ?_⟩, hpath.symm⟩
  rw [← hpath] at hsize
  exact Nat.lt_of_le_of_lt (utf8ByteSize_le_join _ _) hsize

end Tree

end PowerZones
