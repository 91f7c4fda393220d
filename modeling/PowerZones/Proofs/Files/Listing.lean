import PowerZones.Proofs.Files.Route
import PowerZones.Proofs.Keyed

/-!
# Listing and probing

A listing of a directory shows a plain name just where probing the path of that
name finds a directory. The two do not work alike: a listing trusts an entry that
is a directory and follows one that is a link, while probing walks to either.

* **`FileSystem.listEntries_eq_ok`** says what a listing keeps.
* **`FileSystem.subdirectories_eq_ok`**: it is the directory that the path leads to
  whose entries are kept.
* **`FileSystem.mem_subdirectories_iff`** compares it with probing.
-/

namespace PowerZones.FileSystem

variable {fs : FileSystem} {path name : String} {id c p : NodeId} {d : Directory}
  {names : List Name} {left : Nat}

/-! ## One entry -/

/-- Stepping down from a directory that may be searched. -/
theorem step_entry {n : Name} (hsearch : fs.search .owner id = .ok d) (hsize : n.size ≤ Name.maxSize)
    (hfind : d.find? n = some c) : fs.step .owner id (.entry n) = .ok c := by
  simp only [step, hsearch, if_neg (Nat.not_lt.mpr hsize), hfind]

/-- A walk of one step ends at an entry, or beyond it if that is a link. -/
theorem walk_entry {n : Name} (hsearch : fs.search .owner id = .ok d)
    (h : fs.walk .owner true left [.entry n] id = .ok p) :
    ∃ c, d.find? n = some c ∧ (fs.link? c = none → p = c) := by
  cases hstep : fs.step .owner id (.entry n) with
  | error e =>
    rw [walk_of_error hstep] at h
    cases h
  | ok c =>
    refine ⟨c, ?_, fun hlink => ?_⟩
    · simp only [step, hsearch] at hstep
      split at hstep
      · cases hstep
      · cases hfind : d.find? n with
        | none => rw [hfind] at hstep; cases hstep
        | some c' => rw [hfind] at hstep; exact congrArg some (Except.ok.inj hstep)
    · rw [walk_of_step hstep hlink, walk_nil] at h
      exact (Except.ok.inj h).symm

theorem link?_of_directory? (h : fs.directory? id = some d) : fs.link? id = none := by
  unfold directory? at h
  unfold link?
  cases hnode : fs.node? id with
  | none => rfl
  | some node =>
    rw [hnode] at h
    cases node with
    | link target => cases h
    | _ => rfl

/-- Where a walk has come to a directory, it goes on alike with or without asking for one. -/
theorem exists_walk_beyond {base trailing : List Segment} {links : Nat} {place : NodeId}
    (htrailing : trailing = [] ∨ trailing = [.directoryOnly])
    (h : fs.walk .owner true links (base ++ trailing) place = .ok p) :
    ∃ left, ∀ rest,
      fs.walk .owner true links (base ++ trailing ++ rest) place = fs.walk .owner true left rest p ∧
      fs.walk .owner true links (base ++ rest) place = fs.walk .owner true left rest p := by
  cases hbase : fs.walk .owner true links base place with
  | error e =>
    rw [walk_append_error _ _ _ _ hbase] at h
    cases h
  | ok q =>
    obtain ⟨left, hleft⟩ := walk_append hbase
    rw [hleft] at h
    rcases htrailing with rfl | rfl
    · obtain rfl : q = p := Except.ok.inj (walk_nil.symm.trans h)
      exact ⟨left, fun rest => ⟨by rw [List.append_nil, hleft], hleft rest⟩⟩
    · cases hd : fs.directory? q with
      | none =>
        have hstep : fs.step .owner q .directoryOnly = .error .notDirectory := by
          simp only [step, hd]
        rw [walk_of_error hstep] at h
        cases h
      | some d =>
        have hstep : fs.step .owner q .directoryOnly = .ok q := by simp only [step, hd]
        have hlink := link?_of_directory? hd
        rw [walk_of_step hstep hlink, walk_nil] at h
        obtain rfl : q = p := Except.ok.inj h
        refine ⟨left, fun rest => ⟨?_, hleft rest⟩⟩
        rw [List.append_assoc, hleft]
        exact walk_of_step hstep hlink

/-- From a path to its entries: what a walk to an entry comes to is decided where the path
leads, whether the entry is looked for from there or by the joined path. -/
theorem exists_walk_entry (hid : fs.locate true path = .ok id) :
    ∃ left, (∀ n : Name, (join path "").utf8ByteSize + n.size < maxPathSize →
        fs.locateEntry path n = fs.walk .owner true left [.entry n] id) ∧
      ∀ name, PlainName name → pathFault? (join path name) = none →
        fs.locate true (join path name) = fs.walk .owner true left [.entry (.text name)] id := by
  have hwalk : fs.walk .owner true maxLinks (Route.ofText path).segments
      (if (Route.ofText path).absolute then fs.top else fs.current) = .ok id := by
    unfold locate at hid
    split at hid
    · cases hid
    · exact hid
  have htrailing : Route.trailing path.toList = [] ∨
      Route.trailing path.toList = [.directoryOnly] := by
    unfold Route.trailing
    split <;> simp
  obtain ⟨left, hleft⟩ := exists_walk_beyond htrailing hwalk
  refine ⟨left, fun n hsize => ?_, fun name hname hfault => ?_⟩
  · rw [locateEntry, if_neg (Nat.not_le.mpr hsize)]
    exact (hleft [.entry n]).1
  · rw [locate, hfault]
    dsimp only
    rw [follow, absolute_join hname, Route.segments_join path hname]
    exact (hleft [.entry (.text name)]).2

/-- An entry that is a directory is found as such. -/
theorem isSubdirectory_of_directory {n : Name} (hc : (fs.directory? c).isSome = true) :
    fs.isSubdirectory path id (n, c) = .ok true := by
  unfold directory? at hc
  unfold isSubdirectory
  split at hc
  case h_1 d hd => rw [hd]
  case h_2 => cases hc

/-- An entry that is a link and kept leads to a directory. -/
theorem isSubdirectory_of_link {n : Name} {target : String} {kept : Bool}
    (hlink : fs.link? c = some target) (h : fs.isSubdirectory path id (n, c) = .ok kept) :
    ∃ p, fs.locateEntry path n = .ok p ∧ kept = (fs.directory? p).isSome := by
  have hc : fs.node? c = some (.link target) := by
    unfold link? at hlink
    split at hlink
    · cases hlink; assumption
    · cases hlink
  simp only [isSubdirectory, hc] at h
  cases hp : fs.locateEntry path n with
  | error e => rw [hp] at h; cases h
  | ok p =>
    refine ⟨p, rfl, ?_⟩
    simp only [hp] at h
    cases hd : fs.directory? p with
    | none => rw [hd] at h; cases h; rfl
    | some d =>
      simp only [hd] at h
      cases hpermit : fs.permit p .read with
      | error e => rw [hpermit] at h; cases h
      | ok u =>
        simp only [hpermit] at h
        split at h <;> cases h
        rfl

theorem isSubdirectory_of_other {n : Name} (hdirectory : fs.directory? c = none)
    (hlink : fs.link? c = none) : fs.isSubdirectory path id (n, c) = .ok false := by
  unfold directory? at hdirectory
  unfold link? at hlink
  unfold isSubdirectory
  cases hc : fs.node? c with
  | none => rfl
  | some node =>
    cases node with
    | directory d => rw [hc] at hdirectory; cases hdirectory
    | link target => rw [hc] at hlink; cases hlink
    | file permissions bytes => rfl
    | device device => rfl

/-! ## All entries -/

/-- A listing looks at every entry, and keeps the names of those that are
directories or lead to one. -/
theorem listEntries_eq_ok {entries : List (Name × NodeId)}
    (h : fs.listEntries path id entries = .ok names) :
    (∀ e ∈ entries, ∃ kept, fs.isSubdirectory path id e = .ok kept) ∧
      names = (entries.filter fun e => fs.isSubdirectory path id e = .ok true).map Prod.fst := by
  induction entries generalizing names with
  | nil =>
    cases h
    exact ⟨nofun, rfl⟩
  | cons e rest ih =>
    rw [listEntries] at h
    cases he : fs.isSubdirectory path id e with
    | error why => rw [he] at h; cases h
    | ok kept =>
      simp only [he] at h
      cases hrest : fs.listEntries path id rest with
      | error why => rw [hrest] at h; cases h
      | ok others =>
        rw [hrest] at h
        obtain ⟨hall, rfl⟩ := ih hrest
        obtain rfl := Except.ok.inj h
        refine ⟨fun e' he' => ?_, ?_⟩
        · rcases List.mem_cons.mp he' with rfl | he'
          · exact ⟨kept, he⟩
          · exact hall e' he'
        · cases kept <;> simp [he]

/-- What is listed at a path is what the path leads to. -/
theorem listingStart_eq_ok (hid : fs.locate true path = .ok id)
    (h : fs.listingStart path = .ok p) : p = id := by
  unfold listingStart at h
  cases hfirst : fs.locate false path with
  | error e => rw [hfirst] at h; cases h
  | ok first =>
    simp only [hfirst] at h
    cases hlink : fs.link? first with
    | none =>
      rw [hlink] at h
      obtain rfl := Except.ok.inj h
      -- the walk ends at no link, so following the last one makes no difference
      have hsame : fs.locate true path = .ok first := by
        unfold locate at hfirst ⊢
        split at hfirst
        · cases hfirst
        · exact walk_follow hfirst hlink
      exact Except.ok.inj (hsame.symm.trans hid)
    | some target =>
      simp only [hlink, hid] at h
      split at h <;> cases h
      rfl

/-- A listing of a path keeps entries of the directory that the path leads to. -/
theorem subdirectories_eq_ok (hid : fs.locate true path = .ok id)
    (hd : fs.directory? id = some d) (h : fs.subdirectories path = .ok names) :
    fs.listEntries path id d.entries = .ok names := by
  unfold subdirectories at h
  cases hstart : fs.listingStart path with
  | error why => rw [hstart] at h; cases h
  | ok start =>
    obtain rfl := listingStart_eq_ok hid hstart
    simp only [hstart, hd] at h
    split at h
    · cases h
    · exact h

/-- A listing shows each name once. -/
theorem nodup_subdirectories (hid : fs.locate true path = .ok id)
    (hd : fs.directory? id = some d) (h : fs.subdirectories path = .ok names) : names.Nodup := by
  obtain ⟨-, rfl⟩ := listEntries_eq_ok (subdirectories_eq_ok hid hd h)
  exact d.nodup.sublist (List.filter_sublist.map _)

theorem directory?_of_search (h : fs.search .owner id = .ok d) : fs.directory? id = some d := by
  unfold search at h
  cases hd : fs.directory? id with
  | none => rw [hd] at h; cases h
  | some d' =>
    simp only [hd] at h
    split at h <;> cases h
    rfl

/-- A path that leads somewhere is not refused. -/
theorem pathFault?_of_locate {followLast : Bool} (h : fs.locate followLast path = .ok p) :
    pathFault? path = none := by
  unfold locate at h
  split at h
  · cases h
  · assumption

theorem isDirectory_iff :
    fs.isDirectory path = true ↔ ∃ p, fs.locate true path = .ok p ∧ (fs.directory? p).isSome := by
  unfold isDirectory
  cases fs.locate true path with
  | error e => simp
  | ok p => simp

/-- A listing shows a plain name just where probing finds a directory. -/
theorem mem_subdirectories_iff (hname : PlainName name)
    (hsize : (join path name).utf8ByteSize < maxPathSize)
    (hid : fs.locate true path = .ok id) (hsearch : fs.search .owner id = .ok d)
    (h : fs.subdirectories path = .ok names) :
    .text name ∈ names ↔ fs.isDirectory (join path name) = true := by
  have hd := directory?_of_search hsearch
  obtain ⟨hall, rfl⟩ := listEntries_eq_ok (subdirectories_eq_ok hid hd h)
  -- probing and listing follow the same walk, from the directory on
  obtain ⟨left, hlisted, hprobed⟩ := exists_walk_entry hid
  have hwalk := hlisted (.text name) (by rw [Name.size, ← utf8ByteSize_join]; exact hsize)
  rw [isDirectory_iff, List.mem_map]
  constructor
  · rintro ⟨⟨n, c⟩, hmem, rfl⟩
    rw [List.mem_filter, decide_eq_true_eq] at hmem
    obtain ⟨hmem, hkept⟩ := hmem
    obtain ⟨-, hsizeName, hnul⟩ := PlainName.of_proper (d.proper _ hmem)
    rw [hprobed name hname (pathFault?_join (pathFault?_of_locate hid) hnul hsize)]
    -- both follow a link; an entry that is a directory is one step of a walk
    cases hlink : fs.link? c with
    | some target =>
      obtain ⟨p, hp, hdirectory⟩ := isSubdirectory_of_link hlink hkept
      exact ⟨p, hwalk ▸ hp, hdirectory.symm⟩
    | none =>
      refine ⟨c, ?_, ?_⟩
      · have hstep := step_entry (n := .text name) hsearch hsizeName
          (Keyed.lookup_of_mem d.nodup hmem)
        rw [walk_of_step hstep hlink, walk_nil]
      · by_contra hno
        rw [Bool.not_eq_true, Option.isSome_eq_false_iff, Option.isNone_iff_eq_none] at hno
        rw [isSubdirectory_of_other hno hlink] at hkept
        cases hkept
  · rintro ⟨p, hp, hdirectory⟩
    rw [hprobed name hname (pathFault?_of_locate hp)] at hp
    obtain ⟨c, hfind, hend⟩ := walk_entry hsearch hp
    have hmem := Keyed.mem_of_lookup hfind
    refine ⟨(.text name, c), List.mem_filter.mpr ⟨hmem, decide_eq_true ?_⟩, rfl⟩
    cases hlink : fs.link? c with
    | none =>
      rw [hend hlink] at hdirectory
      exact isSubdirectory_of_directory hdirectory
    | some target =>
      -- the listing succeeded, so it could tell what this link leads to
      obtain ⟨kept, hkept⟩ := hall _ hmem
      obtain ⟨p', hp', hsome⟩ := isSubdirectory_of_link hlink hkept
      obtain rfl := Except.ok.inj ((hwalk.symm.trans hp').symm.trans hp)
      rw [hkept, hsome, hdirectory]

end PowerZones.FileSystem
