import PowerZones.Proofs.Files.Listing
import PowerZones.Proofs.Tree.Address
import PowerZones.Proofs.Tree.FileName
import PowerZones.Tree.Existence
import Mathlib.Data.List.Nodup
import Mathlib.Data.List.Perm.Subperm

/-!
# Probing finds the first gap

The zones below an address are counted by looking for one index after the other, with a
bound on the number of looks that comes from the number of entries of the directory.
Each zone that exists has an entry of its own there, so the bound is never reached
before the first index that does not exist.

* **`FileSystem.exists_search_of_join`**: what is found under a name put after a path is found
  in the directory that the path leads to;
* **`Tree.zoneExists_eq_ok_iff`**, **`Tree.zoneExists_eq_error_iff`** and the same for
  constraints: what a look comes to, in terms of the path;
* **`Tree.entry_of_zoneExists`**: a zone that exists has an entry in the directory of the
  address above;
* **`Tree.le_entriesAt`**, **`Tree.lt_probeBound`**: so there are no more zones than
  entries, and fewer, without a gap, than looks;
* **`Tree.zoneCount_of_gap`**: the count is the first index that does not exist, unless
  that has no path.
-/

namespace PowerZones

namespace FileSystem

variable {fs : FileSystem} {path name : String} {id p : NodeId} {e : OsError}

/-- A name put after a path leads somewhere only if the path does. -/
theorem exists_locate_of_join (hpath : OpenPath path) (hname : PlainName name)
    (h : fs.locate true (join path name) = .ok p) : ∃ id, fs.locate true path = .ok id := by
  have hjoin := pathFault?_of_locate h
  -- the path is no longer than the two together, and has no other characters
  have hfault : pathFault? path = none := by
    obtain ⟨hnul, -, hsize⟩ := pathFault?_eq_none.mp hjoin
    rw [hpath.join_eq, String.utf8ByteSize_append, String.utf8ByteSize_append] at hsize
    rw [hpath.join_eq, String.toList_append, String.toList_append, List.mem_append,
      List.mem_append] at hnul
    exact pathFault?_eq_none.mpr ⟨fun hmem => hnul (.inl (.inl hmem)), hpath.ne_empty, by omega⟩
  simp only [locate, hjoin, hfault, follow, absolute_join hname,
    Route.segments_join path hname] at h ⊢
  rw [Route.ofText, hpath.trailing, List.append_nil]
  cases hwalk : fs.walk .owner true maxLinks ((Route.components path.toList).map Segment.ofText)
    (if (Route.ofText path).absolute then fs.top else fs.current) with
  | ok id => exact ⟨id, hwalk⟩
  | error e =>
    rw [walk_append_error _ _ _ _ hwalk] at h
    cases h

/-- What is found under a name put after a path is found in the directory that the path
leads to, which may be searched and has an entry of that name. -/
theorem exists_search_of_join (hpath : OpenPath path) (hname : PlainName name)
    (h : fs.locate true (join path name) = .ok p) :
    ∃ id d, fs.locate true path = .ok id ∧ fs.search .owner id = .ok d ∧
      .text name ∈ d.entries.map Prod.fst := by
  obtain ⟨id, hid⟩ := exists_locate_of_join hpath hname h
  obtain ⟨left, -, hprobed⟩ := exists_walk_entry hid
  rw [hprobed name hname (pathFault?_of_locate h)] at h
  cases hsearch : fs.search .owner id with
  | error e =>
    have hstep : fs.step .owner id (.entry (.text name)) = .error e := by simp only [step, hsearch]
    rw [walk_of_error hstep] at h
    cases h
  | ok d =>
    obtain ⟨c, hfind, -⟩ := walk_entry hsearch h
    exact ⟨id, d, hid, hsearch, List.mem_map.mpr ⟨_, Keyed.mem_of_lookup hfind, rfl⟩⟩

/-- What is found under a name put after a path has an entry of that name. -/
theorem exists_entry_of_join (hpath : OpenPath path) (hname : PlainName name)
    (h : fs.locate true (join path name) = .ok p) :
    ∃ id d, fs.locate true path = .ok id ∧ fs.directory? id = some d ∧
      .text name ∈ d.entries.map Prod.fst := by
  obtain ⟨id, d, hid, hsearch, hmem⟩ := exists_search_of_join hpath hname h
  exact ⟨id, d, hid, directory?_of_search hsearch, hmem⟩

end FileSystem

/-! ## Zones and entries -/

namespace Tree

variable {t : Tree} {fs : FileSystem} {a parent : Address} {index n number : UInt32} {b : Bool}
  {e : Failure}

/-- To look for something is to have a path, and to look there. -/
private theorem look_eq_ok_iff {path : Except Failure String} {look : String → Bool} :
    (do let p ← path; return look p : Except Failure Bool) = .ok b ↔
      ∃ p, path = .ok p ∧ look p = b := by
  cases path <;> simp [bind, Except.bind, pure, Except.pure]

/-- Looking fails only for want of a path. -/
private theorem look_eq_error_iff {path : Except Failure String} {look : String → Bool} :
    (do let p ← path; return look p : Except Failure Bool) = .error e ↔ path = .error e := by
  cases path <;> simp [bind, Except.bind, pure, Except.pure]

theorem zoneExists_eq_ok_iff : t.zoneExists fs a = .ok b ↔
    ∃ path, t.zonePath a = .ok path ∧ fs.isDirectory path = b :=
  look_eq_ok_iff

theorem zoneExists_eq_error_iff : t.zoneExists fs a = .error e ↔ t.zonePath a = .error e :=
  look_eq_error_iff

/-- With a path, a zone exists or not. -/
theorem zoneExists_eq_false {path : String} (hpath : t.zonePath a = .ok path)
    (h : t.zoneExists fs a ≠ .ok true) : t.zoneExists fs a = .ok false := by
  refine zoneExists_eq_ok_iff.mpr ⟨path, hpath, Bool.eq_false_iff.mpr fun htrue => ?_⟩
  exact h (zoneExists_eq_ok_iff.mpr ⟨path, hpath, htrue⟩)

theorem constraintExists_eq_ok_iff : t.constraintExists fs a number = .ok b ↔
    ∃ path, t.attributePath a (.constraint number .powerLimit) = .ok path ∧
      fs.isRegularFile path = b :=
  look_eq_ok_iff

theorem constraintExists_eq_error_iff : t.constraintExists fs a number = .error e ↔
    t.attributePath a (.constraint number .powerLimit) = .error e :=
  look_eq_error_iff

/-- A zone that exists has an entry in the directory of the address above. -/
theorem entry_of_zoneExists (h : t.zoneExists fs (parent.child index) = .ok true) :
    ∃ path id d, t.zonePath parent = .ok path ∧ fs.locate true path = .ok id ∧
      fs.directory? id = some d ∧
      .text (parent.child index).directoryName ∈ d.entries.map Prod.fst := by
  obtain ⟨childPath, hchild, hdirectory⟩ := zoneExists_eq_ok_iff.mp h
  obtain ⟨p, hp, -⟩ := FileSystem.isDirectory_iff.mp hdirectory
  obtain ⟨path, hpath, rfl⟩ := exists_zonePath_of_child hchild
  obtain ⟨id, d, hid, hd, hmem⟩ :=
    FileSystem.exists_entry_of_join (openPath_of_zonePath hpath) (plainName_of_zonePath hchild) hp
  exact ⟨path, id, d, hpath, hid, hd, hmem⟩

/-- What has the path of a directory exists. -/
theorem zoneExists_of_directory {path : String} {id : NodeId} {d : Directory}
    (hpath : t.zonePath a = .ok path) (hid : fs.locate true path = .ok id)
    (hd : fs.directory? id = some d) : t.zoneExists fs a = .ok true := by
  refine zoneExists_eq_ok_iff.mpr ⟨path, hpath, FileSystem.isDirectory_iff.mpr ⟨id, hid, ?_⟩⟩
  rw [hd]
  rfl

/-- A zone exists only where what is above it does. -/
theorem zoneExists_of_child (h : t.zoneExists fs (parent.child index) = .ok true) :
    t.zoneExists fs parent = .ok true := by
  obtain ⟨path, id, d, hpath, hid, hd, -⟩ := entry_of_zoneExists h
  exact zoneExists_of_directory hpath hid hd

theorem directoryName_child_inj {i j : UInt32}
    (h : (parent.child i).directoryName = (parent.child j).directoryName) : i = j := by
  rw [Address.directoryName_child, Address.directoryName_child, ← String.toList_inj,
    String.toList_append, String.toList_append] at h
  exact Numeral.repr_inj (String.toList_inj.mp (List.append_cancel_left h))

/-- The number of entries of the directory of an address. -/
def entriesAt (t : Tree) (fs : FileSystem) (a : Address) : Nat :=
  match t.zonePath a with
  | .ok path => fs.entryCount path
  | .error _ => 0

theorem probeBound_eq (t : Tree) (fs : FileSystem) (a : Address) :
    t.probeBound fs a = t.entriesAt fs a + 1 := by
  unfold probeBound entriesAt
  cases t.zonePath a <;> rfl

/-- Where so many indices have entries of different names in the directory of an address,
there are at least as many entries. -/
theorem le_entriesAt {a : Address} {count : Nat} (names : UInt32 → String)
    (hinj : ∀ i j, names i = names j → i = j) (hcount : count ≤ UInt32.size)
    (hentry : ∀ i : UInt32, i.toNat < count → ∃ path id d, t.zonePath a = .ok path ∧
      fs.locate true path = .ok id ∧ fs.directory? id = some d ∧
      .text (names i) ∈ d.entries.map Prod.fst) :
    count ≤ t.entriesAt fs a := by
  rcases Nat.eq_zero_or_pos count with rfl | hpos
  · exact Nat.zero_le _
  have hindex (j : Nat) (hj : j < count) : (UInt32.ofNat j).toNat = j :=
    UInt32.toNat_ofNat_of_lt (Nat.lt_of_lt_of_le hj hcount)
  obtain ⟨path, id, d, hpath, hid, hd, -⟩ := hentry (UInt32.ofNat 0) ((hindex 0 hpos).symm ▸ hpos)
  let found := (List.range count).map fun j => Name.text (names (UInt32.ofNat j))
  have hnodup : found.Nodup := by
    refine List.Nodup.map_on (fun i hi j hj heq => ?_) List.nodup_range
    have hsame := hinj _ _ (Name.text.inj heq)
    rw [← hindex i (List.mem_range.mp hi), hsame, hindex j (List.mem_range.mp hj)]
  have hsubset : found ⊆ d.entries.map Prod.fst := by
    intro name hname
    obtain ⟨j, hj, rfl⟩ := List.mem_map.mp hname
    have hlt := List.mem_range.mp hj
    obtain ⟨path', id', d', hpath', hid', hd', hmem⟩ :=
      hentry (UInt32.ofNat j) ((hindex j hlt).symm ▸ hlt)
    obtain rfl := Except.ok.inj (hpath.symm.trans hpath')
    obtain rfl := Except.ok.inj (hid.symm.trans hid')
    obtain rfl := Option.some.inj (hd.symm.trans hd')
    exact hmem
  have hlength : count ≤ d.entries.length := by
    simpa [found] using (hnodup.subperm hsubset).length_le
  have hentries : t.entriesAt fs a = d.entries.length := by
    simp only [entriesAt, hpath, FileSystem.entryCount, hid, hd]
  omega

/-- The bound of probing is greater than the number of zones that exist without a gap:
each has an entry of its own. -/
theorem lt_probeBound (h : ∀ j < n, t.zoneExists fs (parent.child j) = .ok true) :
    n.toNat < t.probeBound fs parent := by
  rw [probeBound_eq]
  exact Nat.lt_succ_of_le (le_entriesAt (fun i => (parent.child i).directoryName)
    (fun _ _ => directoryName_child_inj) (Nat.le_of_lt n.toNat_lt)
    fun i hi => entry_of_zoneExists (h i (UInt32.lt_iff_toNat_lt.mpr hi)))

end Tree

/-! ## Probing -/

theorem toNat_next {i : UInt32} (h : i.toNat + 1 < UInt32.size) : (i + 1).toNat = i.toNat + 1 := by
  rw [UInt32.toNat_add]
  exact Nat.mod_eq_of_lt h

/-- Probing stops at the first index that is not present, within its bound. -/
theorem probe_of_gap {present : UInt32 → Except Failure Bool} {n : UInt32}
    (hbelow : ∀ j < n, present j = .ok true) (hgap : present n ≠ .ok true) (bound : Nat)
    (i : UInt32) (hi : i ≤ n) (hbound : n.toNat < i.toNat + bound) :
    probe present bound i = (present n).map fun _ => n := by
  induction bound generalizing i with
  | zero => exact absurd (UInt32.le_iff_toNat_le.mp hi) (by omega)
  | succ bound ih =>
    rw [probe]
    by_cases heq : i = n
    · subst heq
      cases hpresent : present i with
      | error e => rfl
      | ok b =>
        cases b with
        | true => exact absurd hpresent hgap
        | false => rfl
    · have hlt : i < n := UInt32.lt_of_le_of_ne hi heq
      have hnext := toNat_next (Nat.lt_of_le_of_lt (UInt32.lt_iff_toNat_lt.mp hlt) n.toNat_lt)
      rw [hbelow i hlt]
      refine ih (i + 1) ?_ (by omega)
      rw [UInt32.le_iff_toNat_le, hnext]
      exact UInt32.lt_iff_toNat_lt.mp hlt

/-- Whatever lies between the start of probing and its result is present. -/
theorem present_of_lt_probe {present : UInt32 → Except Failure Bool} {bound : Nat} {i j n : UInt32}
    (h : probe present bound i = .ok n) (hij : i ≤ j) (hj : j < n) : present j = .ok true := by
  induction bound generalizing i with
  | zero =>
    obtain rfl : i = n := Except.ok.inj h
    exact absurd hj (UInt32.not_lt.mpr hij)
  | succ bound ih =>
    rw [probe] at h
    cases hlook : present i with
    | error e =>
      rw [hlook] at h
      cases h
    | ok b =>
      rw [hlook] at h
      cases b with
      | false =>
        obtain rfl : i = n := Except.ok.inj h
        exact absurd hj (UInt32.not_lt.mpr hij)
      | true =>
        by_cases heq : j = i
        · exact heq ▸ hlook
        · have hlt := UInt32.lt_iff_toNat_lt.mp (UInt32.lt_of_le_of_ne hij (Ne.symm heq))
          apply ih h
          -- there is an index after this one, so the counter does not come round
          rw [UInt32.le_iff_toNat_le, toNat_next (Nat.lt_of_le_of_lt hlt j.toNat_lt)]
          exact hlt

/-- An index that is not present is the first such, or there is one before it. -/
theorem exists_first_gap (present : UInt32 → Except Failure Bool) {n : UInt32}
    (h : present n ≠ .ok true) :
    ∃ m ≤ n, (∀ j < m, present j = .ok true) ∧ present m ≠ .ok true := by
  induction hk : n.toNat using Nat.strongRecOn generalizing n with
  | ind k ih =>
    by_cases hbelow : ∀ j < n, present j = .ok true
    · exact ⟨n, UInt32.le_refl n, hbelow, h⟩
    · push Not at hbelow
      obtain ⟨j, hj, habsent⟩ := hbelow
      obtain ⟨m, hm, hfirst⟩ := ih j.toNat (hk ▸ UInt32.lt_iff_toNat_lt.mp hj) habsent rfl
      exact ⟨m, UInt32.le_trans hm (UInt32.le_of_lt hj), hfirst⟩

namespace Tree

variable {t : Tree} {fs : FileSystem} {parent : Address} {n : UInt32}

/-- The zones below an address are counted up to the first index that does not exist. If
that has no path, they cannot be counted. -/
theorem zoneCount_of_gap (hdepth : parent.zones.length < maxDepth)
    (hbelow : ∀ j < n, t.zoneExists fs (parent.child j) = .ok true)
    (hgap : t.zoneExists fs (parent.child n) ≠ .ok true) :
    t.zoneCount fs parent = (t.zoneExists fs (parent.child n)).map fun _ => n := by
  rw [zoneCount, if_neg (Nat.not_le.mpr hdepth)]
  exact probe_of_gap hbelow hgap _ 0 (UInt32.zero_le) (by simpa using lt_probeBound hbelow)

/-- What is counted exists. -/
theorem zoneExists_of_lt_zoneCount (hdepth : parent.zones.length < maxDepth)
    (h : t.zoneCount fs parent = .ok n) {i : UInt32} (hi : i < n) :
    t.zoneExists fs (parent.child i) = .ok true := by
  rw [zoneCount, if_neg (Nat.not_le.mpr hdepth)] at h
  exact present_of_lt_probe h UInt32.zero_le hi

/-- Where a zone exists on neither of two file systems, looking for it comes to the same:
that it has no path does not depend on files. -/
theorem zoneExists_eq_of_ne {fs fs' : FileSystem} {a : Address}
    (h : t.zoneExists fs a ≠ .ok true) (h' : t.zoneExists fs' a ≠ .ok true) :
    t.zoneExists fs' a = t.zoneExists fs a := by
  cases hpath : t.zonePath a with
  | error e => rw [zoneExists_eq_error_iff.mpr hpath, zoneExists_eq_error_iff.mpr hpath]
  | ok path => rw [zoneExists_eq_false hpath h, zoneExists_eq_false hpath h']

/-- The zones directly below an address are those with the indices below a count; the
count itself is the first index that does not exist. -/
structure Numbered (t : Tree) (fs : FileSystem) (parent : Address) (count : UInt32) : Prop where
  below : ∀ j < count, t.zoneExists fs (parent.child j) = .ok true
  gap : t.zoneExists fs (parent.child count) = .ok false

theorem Numbered.zoneCount_eq (h : t.Numbered fs parent n) (hdepth : parent.zones.length < maxDepth) :
    t.zoneCount fs parent = .ok n := by
  rw [zoneCount_of_gap hdepth h.below (by rw [h.gap]; simp), h.gap]
  rfl

end Tree

end PowerZones
