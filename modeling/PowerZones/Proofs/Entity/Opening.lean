import PowerZones.Proofs.Entity.Agreement
import PowerZones.Proofs.Tree.Refusal

/-!
# Opening what the files allow

A zone or a constraint is opened attribute by attribute, in their order. Each is wanted
for reading, or for reading and writing if it may be written and that was asked for. A
file that is not there leaves its slot absent; the first that is there and cannot be
opened makes the opening fail.

* **`FileSystem.Lacks`**, **`FileSystem.Grants`**, **`FileSystem.Denies`** say what a file
  system has to offer for an attribute at a path; only the energy counter is asked for
  twice;
* **`FileSystem.judge_eq_missing_iff`** and its like: these three are what
  `FileSystem.judge` decides between;
* **`Survey.table_eq_error_iff`**: a table fails for its first attribute that does;
* **`Tree.OpensAllowed`** is what an opening is to come to, slot by slot and failure by
  failure, and **`handles_open_as_files_allow`** says that it does.
-/

namespace PowerZones

open PowerZones.Action

/-! ## One file -/

/-- What an attribute is opened for, if its handle is for reading only or not. -/
def Attribute.wanted (attr : Attribute) (readOnly : Bool) : Access :=
  if !readOnly && attr.writable then .readWrite else .read

theorem Attribute.wanted_eq_readWrite {attr : Attribute} {readOnly : Bool} :
    attr.wanted readOnly = .readWrite ↔ (!readOnly && attr.writable) = true := by
  unfold wanted
  cases !readOnly && attr.writable <;> simp

theorem Attribute.wanted_eq_read {attr : Attribute} {readOnly : Bool} :
    attr.wanted readOnly = .read ↔ (!readOnly && attr.writable) = false := by
  unfold wanted
  cases !readOnly && attr.writable <;> simp

/-- Only the energy counter is opened for reading when writing is denied. -/
theorem Attribute.fallsBack_iff {attr : Attribute} :
    attr.fallsBack = true ↔ attr = .zone .energy := by
  cases attr with
  | zone z => cases z <;> simp [fallsBack]
  | _ => simp [fallsBack]

namespace FileSystem

section Offer

variable (fs : FileSystem) (attr : Attribute) (readOnly : Bool) (path : String)

/-- There is no file at the path of an attribute. -/
def Lacks : Prop :=
  fs.access path (attr.wanted readOnly) = .error .noEntry

/-- The path of an attribute leads to a node that may be opened, in some way. Only
the energy counter may be opened in another way than it was wanted. -/
inductive Grants : NodeId → Grant → Prop
  | readWrite {node : NodeId} :
    attr.wanted readOnly = .readWrite → fs.access path .readWrite = .ok node →
    Grants node .readWrite
  | readOnly {node : NodeId} :
    attr.wanted readOnly = .read → fs.access path .read = .ok node → Grants node .readOnly
  | fallback {node : NodeId} :
    attr = .zone .energy → readOnly = false →
    fs.access path .readWrite = .error .accessDenied → fs.access path .read = .ok node →
    Grants node .readOnlyFallback

/-- The path of an attribute cannot be opened though there is something, and the last
attempt to open it fails so. -/
inductive Denies : OsError → Prop
  | asked {why : OsError} :
    fs.access path (attr.wanted readOnly) = .error why → why ≠ .noEntry →
    ¬(why = .accessDenied ∧ attr = .zone .energy ∧ readOnly = false) → Denies why
  | retried {why : OsError} :
    attr = .zone .energy → readOnly = false →
    fs.access path .readWrite = .error .accessDenied → fs.access path .read = .error why →
    Denies why

end Offer

variable {fs : FileSystem} {attr : Attribute} {readOnly : Bool} {path : String} {node : NodeId}
  {grant : Grant} {why : OsError}

theorem judge_of_lacks (h : fs.Lacks attr readOnly path) :
    fs.judge path (!readOnly && attr.writable) attr.fallsBack = .missing := by
  unfold Lacks Attribute.wanted at h
  simp only [judge, h]

theorem judge_of_grants (h : fs.Grants attr readOnly path node grant) :
    fs.judge path (!readOnly && attr.writable) attr.fallsBack =
      .granted node grant.access grant := by
  cases h with
  | readWrite hwanted haccess =>
    rw [Attribute.wanted_eq_readWrite] at hwanted
    simp only [judge, hwanted, if_true, haccess]
    rfl
  | readOnly hwanted haccess =>
    rw [Attribute.wanted_eq_read] at hwanted
    simp [judge, hwanted, haccess, Grant.access]
  | fallback hattr hread hdenied haccess =>
    subst hattr hread
    simp [judge, Attribute.writable, ZoneAttribute.writable, Attribute.fallsBack, hdenied, haccess,
      Grant.access]

/-- What is denied at the first attempt is not tried again, unless it is the energy counter,
asked for writing and denied permission. -/
theorem judge_of_asked (haccess : fs.access path (attr.wanted readOnly) = .error why)
    (hsome : why ≠ .noEntry)
    (hfirst : ¬(why = .accessDenied ∧ attr = .zone .energy ∧ readOnly = false)) :
    fs.judge path (!readOnly && attr.writable) attr.fallsBack = .refused false why := by
  have honce : ¬(why = .accessDenied ∧ (!readOnly && attr.writable) = true ∧
      attr.fallsBack = true) := by
    rintro ⟨rfl, hwrite, hfalls⟩
    refine hfirst ⟨rfl, Attribute.fallsBack_iff.mp hfalls, ?_⟩
    simpa using (Bool.and_eq_true_iff.mp hwrite).1
  unfold Attribute.wanted at haccess
  unfold judge
  rw [haccess]
  cases why with
  | noEntry => exact absurd rfl hsome
  | _ => exact if_neg honce

theorem judge_of_retried (hattr : attr = .zone .energy) (hread : readOnly = false)
    (hdenied : fs.access path .readWrite = .error .accessDenied)
    (haccess : fs.access path .read = .error why) :
    fs.judge path (!readOnly && attr.writable) attr.fallsBack = .refused true why := by
  subst hattr hread
  simp [judge, Attribute.writable, ZoneAttribute.writable, Attribute.fallsBack, hdenied, haccess]

theorem judge_of_denies (h : fs.Denies attr readOnly path why) :
    ∃ retried, fs.judge path (!readOnly && attr.writable) attr.fallsBack = .refused retried why := by
  cases h with
  | asked haccess hsome hfirst => exact ⟨false, judge_of_asked haccess hsome hfirst⟩
  | retried hattr hread hdenied haccess =>
    exact ⟨true, judge_of_retried hattr hread hdenied haccess⟩

/-- Every path is offered in one of the three ways. -/
theorem lacks_or_grants_or_denies (fs : FileSystem) (attr : Attribute) (readOnly : Bool)
    (path : String) : fs.Lacks attr readOnly path ∨
      (∃ node grant, fs.Grants attr readOnly path node grant) ∨
      ∃ why, fs.Denies attr readOnly path why := by
  cases haccess : fs.access path (attr.wanted readOnly) with
  | ok node =>
    refine .inr (.inl ?_)
    cases hwanted : attr.wanted readOnly with
    | readWrite => exact ⟨node, _, .readWrite hwanted (hwanted ▸ haccess)⟩
    | read => exact ⟨node, _, .readOnly hwanted (hwanted ▸ haccess)⟩
    | write => exact absurd hwanted (by unfold Attribute.wanted; split <;> simp)
  | error why =>
    by_cases hnone : why = .noEntry
    · subst hnone
      exact .inl haccess
    by_cases hagain : why = .accessDenied ∧ attr = .zone .energy ∧ readOnly = false
    · -- the energy counter is asked for once more, and what that comes to counts
      obtain ⟨rfl, rfl, rfl⟩ := hagain
      cases hread : fs.access path .read with
      | ok node => exact .inr (.inl ⟨node, _, .fallback rfl rfl haccess hread⟩)
      | error why => exact .inr (.inr ⟨why, .retried rfl rfl haccess hread⟩)
    · exact .inr (.inr ⟨why, .asked haccess hnone hagain⟩)

/-! ### Verdicts -/

theorem judge_eq_missing_iff :
    fs.judge path (!readOnly && attr.writable) attr.fallsBack = .missing ↔
      fs.Lacks attr readOnly path := by
  refine ⟨fun h => ?_, judge_of_lacks⟩
  rcases fs.lacks_or_grants_or_denies attr readOnly path with hlacks | ⟨_, _, hgrants⟩ | ⟨_, hdenies⟩
  · exact hlacks
  · rw [judge_of_grants hgrants] at h
    cases h
  · obtain ⟨_, hrefused⟩ := judge_of_denies hdenies
    rw [hrefused] at h
    cases h

theorem judge_eq_granted_iff :
    (∃ access, fs.judge path (!readOnly && attr.writable) attr.fallsBack =
      .granted node access grant) ↔ fs.Grants attr readOnly path node grant := by
  refine ⟨fun ⟨_, h⟩ => ?_, fun h => ⟨_, judge_of_grants h⟩⟩
  rcases fs.lacks_or_grants_or_denies attr readOnly path with hlacks | ⟨_, _, hgrants⟩ | ⟨_, hdenies⟩
  · rw [judge_of_lacks hlacks] at h
    cases h
  · rw [judge_of_grants hgrants] at h
    cases h
    exact hgrants
  · obtain ⟨_, hrefused⟩ := judge_of_denies hdenies
    rw [hrefused] at h
    cases h

theorem judge_eq_refused_iff :
    (∃ retried, fs.judge path (!readOnly && attr.writable) attr.fallsBack =
      .refused retried why) ↔ fs.Denies attr readOnly path why := by
  refine ⟨fun ⟨_, h⟩ => ?_, judge_of_denies⟩
  rcases fs.lacks_or_grants_or_denies attr readOnly path with hlacks | ⟨_, _, hgrants⟩ | ⟨_, hdenies⟩
  · rw [judge_of_lacks hlacks] at h
    cases h
  · rw [judge_of_grants hgrants] at h
    cases h
  · obtain ⟨_, hrefused⟩ := judge_of_denies hdenies
    rw [hrefused] at h
    cases h
    exact hdenies

end FileSystem

/-! ## One slot -/

namespace Tree

section Offer

variable (t : Tree) (fs : FileSystem) (a : Address) (attr : Attribute) (readOnly : Bool)

/-- There is no file for an attribute at an address. -/
def LacksFile : Prop :=
  ∃ path, t.attributePath a attr = .ok path ∧ fs.Lacks attr readOnly path

/-- The file for an attribute at an address is at a path, and may be opened. -/
structure GrantsFile (path : String) (node : NodeId) (grant : Grant) : Prop where
  resolved : t.attributePath a attr = .ok path
  granted : fs.Grants attr readOnly path node grant

/-- Why the file for an attribute at an address cannot be opened: its path is too
long, or permission is denied for just that path, or the system says otherwise. -/
inductive DeniesFile : Failure → Prop
  | tooLong {size : Nat} :
    t.attributePath a attr = .error (.pathTooLong size) → maxPathSize ≤ size →
    DeniesFile (.pathTooLong size)
  | permission {path : String} :
    t.attributePath a attr = .ok path → fs.Denies attr readOnly path .accessDenied →
    DeniesFile (.permissionDenied path (.system .accessDenied))
  | system {path : String} {why : OsError} :
    t.attributePath a attr = .ok path → fs.Denies attr readOnly path why → why ≠ .accessDenied →
    DeniesFile (.system why)

end Offer

variable {t : Tree} {fs : FileSystem} {a : Address} {attr : Attribute} {readOnly : Bool}

/-! ### Surveys of a slot -/

/-- A slot is surveyed by the verdict on its path. -/
theorem result_surveySlot {path : String} {write : Bool}
    (hpath : t.attributePath a attr = .ok path) :
    (t.surveySlot a attr write).result fs =
      match fs.judge path write attr.fallsBack with
      | .granted node _ grant => .ok (some ⟨path, node, grant⟩)
      | .missing => .ok none
      | .refused _ why => .error (.ofOpening path why) := by
  simp only [surveySlot, hpath, Survey.result_bind, Survey.result_ofExcept, Survey.result_look,
    Except.bind]
  cases fs.judge path write attr.fallsBack <;> rfl

theorem surveySlot_eq_none_iff :
    (t.surveySlot a attr (!readOnly && attr.writable)).result fs = .ok none ↔
      t.LacksFile fs a attr readOnly := by
  cases hpath : t.attributePath a attr with
  | error e => simp [surveySlot, LacksFile, hpath, Except.bind]
  | ok path =>
    have hverdict : fs.judge path (!readOnly && attr.writable) attr.fallsBack = .missing ↔
        fs.Lacks attr readOnly path := FileSystem.judge_eq_missing_iff
    rw [result_surveySlot hpath, LacksFile, hpath]
    simp only [Except.ok.injEq, exists_eq_left', ← hverdict]
    cases fs.judge path (!readOnly && attr.writable) attr.fallsBack <;> simp

theorem surveySlot_eq_some_iff {b : Backing} :
    (t.surveySlot a attr (!readOnly && attr.writable)).result fs = .ok (some b) ↔
      t.GrantsFile fs a attr readOnly b.path b.node b.grant := by
  cases hpath : t.attributePath a attr with
  | error e =>
    simp only [surveySlot, hpath, Survey.result_bind, Survey.result_ofExcept, Except.bind]
    constructor
    · intro h
      cases h
    · intro h
      cases hpath.symm.trans h.resolved
  | ok path =>
    rw [result_surveySlot hpath]
    constructor
    · intro h
      split at h
      next hverdict =>
        cases h
        exact ⟨hpath, FileSystem.judge_eq_granted_iff.mp ⟨_, hverdict⟩⟩
      next => cases h
      next => cases h
    · rintro ⟨hresolved, hgranted⟩
      obtain rfl := Except.ok.inj (hpath.symm.trans hresolved)
      rw [FileSystem.judge_of_grants hgranted]

/-- A slot fails for what denies its file. -/
theorem surveySlot_eq_error_iff {e : Failure} (hproper : attr.refusal? a = none) :
    (t.surveySlot a attr (!readOnly && attr.writable)).result fs = .error e ↔
      t.DeniesFile fs a attr readOnly e := by
  cases hpath : t.attributePath a attr with
  | error e' =>
    obtain ⟨⟨size, rfl, hsize⟩, -⟩ := attributePath_eq_error hproper hpath
    simp only [surveySlot, hpath, Survey.result_bind, Survey.result_ofExcept, Except.bind]
    constructor
    · intro h
      cases h
      exact .tooLong hpath hsize
    · intro h
      cases h with
      | tooLong hsame => rw [hpath] at hsame; cases hsame; rfl
      | permission hok => rw [hpath] at hok; cases hok
      | system hok => rw [hpath] at hok; cases hok
  | ok path =>
    rw [result_surveySlot hpath]
    constructor
    · intro h
      split at h
      next => cases h
      next => cases h
      next why hverdict =>
        have hdenies := FileSystem.judge_eq_refused_iff.mp ⟨_, hverdict⟩
        cases h
        by_cases hwhy : why = .accessDenied
        · subst hwhy
          exact .permission hpath hdenies
        · have hsystem : Failure.ofOpening path why = .system why := by
            cases why with
            | accessDenied => exact absurd rfl hwhy
            | _ => rfl
          rw [hsystem]
          exact .system hpath hdenies hwhy
    · intro h
      cases h with
      | tooLong hno => rw [hpath] at hno; cases hno
      | permission hok hdenies =>
        obtain rfl := Except.ok.inj (hpath.symm.trans hok)
        obtain ⟨_, hverdict⟩ := FileSystem.judge_of_denies hdenies
        rw [hverdict]
        rfl
      | @system _ why hok hdenies hwhy =>
        obtain rfl := Except.ok.inj (hpath.symm.trans hok)
        obtain ⟨_, hverdict⟩ := FileSystem.judge_of_denies hdenies
        rw [hverdict]
        cases why with
        | accessDenied => exact absurd rfl hwhy
        | _ => rfl

end Tree

/-! ## Tables -/

namespace Survey

variable {α : Type} {surveyOne : α → Survey (Option Backing)} {fs : FileSystem} {as : List α}

theorem exists_table_iff : (∃ entries, (table surveyOne as).result fs = .ok entries) ↔
    ∀ a ∈ as, ∃ found, (surveyOne a).result fs = .ok found := by
  induction as with
  | nil => exact ⟨fun _ _ h => (List.not_mem_nil h).elim, fun _ => ⟨[], rfl⟩⟩
  | cons a rest ih =>
    rw [List.forall_mem_cons, ← ih]
    constructor
    · rintro ⟨_, h⟩
      obtain ⟨found, hfound, h⟩ := result_bind_eq_ok.mp h
      obtain ⟨others, hothers, -⟩ := result_bind_eq_ok.mp h
      exact ⟨⟨found, hfound⟩, others, hothers⟩
    · rintro ⟨⟨found, hfound⟩, others, hothers⟩
      refine ⟨(a, found) :: others, result_bind_eq_ok.mpr ⟨found, hfound, ?_⟩⟩
      exact result_bind_eq_ok.mpr ⟨others, hothers, rfl⟩

/-- A table fails for the first of its attributes that does. -/
theorem table_eq_error_iff {e : Failure} : (table surveyOne as).result fs = .error e ↔
    ∃ before a after, as = before ++ a :: after ∧
      (∀ b ∈ before, ∃ found, (surveyOne b).result fs = .ok found) ∧
      (surveyOne a).result fs = .error e := by
  induction as with
  | nil =>
    constructor
    · intro h
      cases h
    · rintro ⟨_, _, _, h, -⟩
      simp at h
  | cons first rest ih =>
    rw [table, result_bind]
    cases hfirst : (surveyOne first).result fs with
    | error e' =>
      constructor
      · intro h
        cases h
        exact ⟨[], first, rest, rfl, by simp, hfirst⟩
      · rintro ⟨before, a, after, hsplit, hbefore, ha⟩
        cases before with
        | nil =>
          cases hsplit
          rw [hfirst] at ha
          cases ha
          rfl
        | cons b before =>
          obtain ⟨rfl, -⟩ := List.cons.inj hsplit
          obtain ⟨found, hfound⟩ := hbefore first List.mem_cons_self
          rw [hfirst] at hfound
          cases hfound
    | ok found =>
      have hrest : (Except.ok found : Except Failure (Option Backing)).bind (fun found =>
          ((table surveyOne rest) >>= fun others => pure ((first, found) :: others)).result fs) =
          .error e ↔ (table surveyOne rest).result fs = .error e := by
        simp only [Except.bind, result_bind]
        cases (table surveyOne rest).result fs <;> simp
      rw [hrest, ih]
      constructor
      · rintro ⟨before, a, after, rfl, hbefore, ha⟩
        exact ⟨first :: before, a, after, rfl,
          List.forall_mem_cons.mpr ⟨⟨found, hfirst⟩, hbefore⟩, ha⟩
      · rintro ⟨before, a, after, hsplit, hbefore, ha⟩
        cases before with
        | nil =>
          cases hsplit
          rw [hfirst] at ha
          cases ha
        | cons b before =>
          obtain ⟨rfl, hmore⟩ := List.cons.inj hsplit
          exact ⟨before, a, after, hmore, fun b hb => hbefore b (List.mem_cons_of_mem _ hb), ha⟩

end Survey

/-- A slot of a whole table stands on what a survey of that slot alone finds. -/
theorem Slots.StandOn.exists_found {α : Type} [Vocabulary α] [DecidableEq α] {ds : Descriptors}
    {slots : Slots α} {table : Table α} (h : slots.StandOn ds table) {fs : FileSystem}
    {surveyOne : α → Survey (Option Backing)}
    (htable : (Survey.table surveyOne Vocabulary.members).result fs = .ok table) (x : α) :
    ∃ found, (surveyOne x).result fs = .ok found ∧ (slots.slot x).StandsOn ds found := by
  obtain ⟨found, hfound, hlook⟩ := Survey.lookup_table htable (Vocabulary.complete x)
  have hstands := h.slot x
  rw [hlook] at hstands
  exact ⟨found, hfound, hstands⟩

/-! ## Handles -/

/-- What opening a handle comes to for some attributes, given what is offered for
each of them. It succeeds where no file is denied; a slot is absent then where there is
no file, and otherwise open on the node at the path of its attribute, in the way that
was granted. It fails for the first attribute whose file is denied. -/
structure Tree.OpensAllowed {α β : Type} [Vocabulary α] (t : Tree) (fs : FileSystem)
    (a : Address) (readOnly : Bool) (of : α → Attribute) (slot : β → α → Slot)
    (outcome : Outcome β) : Prop where
  opens_iff : (∃ h, outcome.result = .ok h) ↔
    ∀ x, t.LacksFile fs a (of x) readOnly ∨
      ∃ path node grant, t.GrantsFile fs a (of x) readOnly path node grant
  absent_iff : ∀ h, outcome.result = .ok h →
    ∀ x, slot h x = .absent ↔ t.LacksFile fs a (of x) readOnly
  opened : ∀ h, outcome.result = .ok h →
    ∀ x id path grant, slot h x = .opened id path grant →
      ∃ node, t.GrantsFile fs a (of x) readOnly path node grant ∧
        outcome.host.descriptors.find? id = some ⟨node, grant.access⟩
  fallback : ∀ h, outcome.result = .ok h →
    ∀ x id path, slot h x = .opened id path .readOnlyFallback →
      of x = .zone .energy ∧ readOnly = false
  error_iff : ∀ e, outcome.result = .error e ↔
    ∃ before x after, (Vocabulary.members : List α) = before ++ x :: after ∧
      (∀ y ∈ before, t.LacksFile fs a (of y) readOnly ∨
        ∃ path node grant, t.GrantsFile fs a (of y) readOnly path node grant) ∧
      t.DeniesFile fs a (of x) readOnly e

section Opens

variable {t : Tree} {a : Address} {readOnly : Bool}

/-- A slot is found where there is no file or one that may be opened. -/
theorem Tree.exists_surveySlot_iff {fs : FileSystem} {attr : Attribute} :
    (∃ found, (t.surveySlot a attr (!readOnly && attr.writable)).result fs = .ok found) ↔
      t.LacksFile fs a attr readOnly ∨
        ∃ path node grant, t.GrantsFile fs a attr readOnly path node grant := by
  constructor
  · rintro ⟨found, hfound⟩
    cases found with
    | none => exact .inl (surveySlot_eq_none_iff.mp hfound)
    | some b => exact .inr ⟨_, _, _, surveySlot_eq_some_iff.mp hfound⟩
  · rintro (hlacks | ⟨path, node, grant, hgrants⟩)
    · exact ⟨none, surveySlot_eq_none_iff.mpr hlacks⟩
    · exact ⟨some ⟨path, node, grant⟩, surveySlot_eq_some_iff.mpr hgrants⟩

/-- An action that realizes the survey of a table opens what the files allow. -/
theorem Tree.opensAllowed_of_realizes {α β : Type} [Vocabulary α] [DecidableEq α]
    {of : α → Attribute} {slots : β → Slots α} {act : Action β} {host : Host}
    {R : Descriptors → β → Table α → Prop} (hproper : ∀ x, (of x).refusal? a = none)
    (hrealizes : act.Realizes host (Survey.table
      (fun x => t.surveySlot a (of x) (!readOnly && (of x).writable)) Vocabulary.members) R)
    (hslots : ∀ ds h table, R ds h table → (slots h).StandOn ds table) :
    t.OpensAllowed host.files a readOnly of (fun h x => (slots h).slot x) (act.run host) := by
  have hslot (h : β) (hok : (act.run host).result = .ok h) (x : α) :
      ∃ found, (t.surveySlot a (of x) (!readOnly && (of x).writable)).result host.files =
        .ok found ∧ ((slots h).slot x).StandsOn (act.run host).host.descriptors found := by
    obtain ⟨table, htable, hR⟩ := hrealizes.of_ok hok
    exact (hslots _ h table hR).exists_found htable x
  have hopened (h : β) (hok : (act.run host).result = .ok h) (x : α) (id : DescriptorId)
      (path : String) (grant : Grant) (hx : (slots h).slot x = .opened id path grant) :
      ∃ node, t.GrantsFile host.files a (of x) readOnly path node grant ∧
        (act.run host).host.descriptors.find? id = some ⟨node, grant.access⟩ := by
    obtain ⟨found, hfound, hstands⟩ := hslot h hok x
    rw [hx] at hstands
    cases hstands with
    | opened hid => exact ⟨_, surveySlot_eq_some_iff.mp hfound, hid⟩
  refine ⟨?_, ?_, hopened, ?_, ?_⟩
  · rw [hrealizes.exists_ok_iff, Survey.exists_table_iff]
    exact ⟨fun h x => exists_surveySlot_iff.mp (h x (Vocabulary.complete x)),
      fun h x _ => exists_surveySlot_iff.mpr (h x)⟩
  · intro h hok x
    obtain ⟨found, hfound, hstands⟩ := hslot h hok x
    rw [← surveySlot_eq_none_iff, hfound]
    generalize (slots h).slot x = slot at hstands ⊢
    cases hstands <;> simp
  · intro h hok x id path hx
    obtain ⟨node, ⟨_, hgranted⟩, _⟩ := hopened h hok x id path _ hx
    cases hgranted with
    | fallback hattr hread => exact ⟨hattr, hread⟩
  · intro e
    rw [hrealizes.error_iff, Survey.table_eq_error_iff]
    simp only [exists_surveySlot_iff, surveySlot_eq_error_iff (hproper _)]

end Opens

/-- Zones and constraints open what the files allow, at every proper address. -/
theorem handles_open_as_files_allow (t : Tree) (a : Address) (readOnly : Bool) (host : Host)
    (hproper : ¬a.Improper) :
    t.OpensAllowed host.files a readOnly .zone Zone.slot ((t.openZone a readOnly).run host) ∧
      ∀ number, t.OpensAllowed host.files a readOnly (.constraint number) Constraint.slot
        ((t.openConstraint a number readOnly).run host) := by
  have hrefusal : a.refusal? = none := by
    rwa [← a.isSome_refusal?, Option.not_isSome_iff_eq_none] at hproper
  -- no attribute of a zone or of a constraint is one of a control type
  have hzone (x : ZoneAttribute) : (Attribute.zone x).refusal? a = none :=
    (if_neg (by simp [Attribute.ofControlType])).trans hrefusal
  have hconstraint (number : UInt32) (x : ConstraintAttribute) :
      (Attribute.constraint number x).refusal? a = none :=
    (if_neg (by simp [Attribute.ofControlType])).trans hrefusal
  exact ⟨Tree.opensAllowed_of_realizes hzone (t.realizes_openZone a readOnly host)
      fun _ _ _ h => h.2,
    fun number => Tree.opensAllowed_of_realizes (hconstraint number)
      (t.realizes_openConstraint a readOnly host number) fun _ _ _ h => h.2⟩

/-- A file system with one zone that may be read but not written: an energy counter and
a switch. -/
def unwritableZone : FileSystem where
  nodes :=
    let all : Permissions := ⟨true, true, true⟩
    let zone := (Directory.empty all 2).insert (.text "energy_uj") 4 (.refl true)
    #[.directory ((Directory.empty all 0).insert (.text "powercap") 1 (.refl true)),
      .directory ((Directory.empty all 0).insert (.text "dtpm") 2 (.refl true)),
      .directory ((Directory.empty all 1).insert (.text "dtpm:0") 3 (.refl true)),
      .directory (zone.insert (.text "enabled") 5 (.refl true)),
      .file ⟨true, false, true⟩ [0x37, 0x0A],
      .file ⟨true, false, true⟩ [0x31, 0x0A]]
  top := 0
  current := 0

/-- Opened for writing too, the zone that may only be read fails for its switch, not for
its energy counter, which comes first. Opened for reading, it has these two and nothing
else, and constraints without any attribute. -/
theorem unwritableZone_opens_as_allowed :
    let t : Tree := { root := "/powercap" }
    let a : Address := { controlType := "dtpm", zones := [0] }
    let host : Host := .ofFiles unwritableZone
    ¬a.Improper ∧
      ((t.openZone a false).run host).result =
        .error (.permissionDenied "/powercap/dtpm/dtpm:0/enabled" (.system .accessDenied)) ∧
      (∃ z, ((t.openZone a true).run host).result = .ok z ∧ z.slot .name = .absent ∧
        z.slot .energy ≠ .absent) ∧
      ∃ c, ((t.openConstraint a 0 false).run host).result = .ok c ∧ ∀ x, c.slot x = .absent := by
  intro t a host
  subst t a host
  have hproper : ¬({ controlType := "dtpm", zones := [0] } : Address).Improper := by
    unfold Address.Improper
    decide
  have hallows (readOnly : Bool) := handles_open_as_files_allow { root := "/powercap" } _ readOnly
    (.ofFiles unwritableZone) hproper
  refine ⟨hproper, ?_, ?_, ?_⟩
  · -- what comes before the switch is not there, or falls back to reading
    refine ((hallows false).1.error_iff _).mpr ⟨[.maxEnergyRange, .energy, .maxPowerRange, .power],
      .enabled, [.name], rfl, ?_, .permission rfl (.asked rfl nofun nofun)⟩
    simp only [List.forall_mem_cons, List.not_mem_nil, false_implies, implies_true, and_true]
    exact ⟨.inl ⟨_, rfl, rfl⟩, .inr ⟨_, 4, .readOnlyFallback, rfl, .fallback rfl rfl rfl rfl⟩,
      .inl ⟨_, rfl, rfl⟩, .inl ⟨_, rfl, rfl⟩⟩
  · obtain ⟨z, hz⟩ := (hallows true).1.opens_iff.mpr fun x => by
      cases x with
      | energy => exact .inr ⟨_, 4, .readOnly, rfl, .readOnly rfl rfl⟩
      | enabled => exact .inr ⟨_, 5, .readOnly, rfl, .readOnly rfl rfl⟩
      | _ => exact .inl ⟨_, rfl, rfl⟩
    refine ⟨z, hz, ((hallows true).1.absent_iff z hz .name).mpr ⟨_, rfl, rfl⟩, ?_⟩
    rw [ne_eq, (hallows true).1.absent_iff z hz .energy]
    rintro ⟨path, hpath, hlacks⟩
    cases hpath
    cases hlacks
  · have hlacks (x : ConstraintAttribute) : Tree.LacksFile { root := "/powercap" } unwritableZone
        { controlType := "dtpm", zones := [0] } (.constraint 0 x) false := by
      cases x <;> exact ⟨_, rfl, rfl⟩
    obtain ⟨c, hc⟩ := ((hallows false).2 0).opens_iff.mpr fun x => .inl (hlacks x)
    exact ⟨c, hc, fun x => (((hallows false).2 0).absent_iff c hc x).mpr (hlacks x)⟩

end PowerZones
