import PowerZones.Proofs.Action.Attempts
import PowerZones.Proofs.Entity.Opening
import PowerZones.Proofs.Rapl.Checks

/-!
# Diagnostics match what happened

Everything that opens files is a list of attempts. Each of them says what it comes to: a
file may be absent, which is worth a record for debugging, or denied, which is an error;
constraints may be the other way round, which is worth a warning; and the name of a zone may
tell no domain, or one that was met before. Nothing else is put on record.

* **`Attempt.ComesTo`** is this table, with one row for each way an attempt can go, and
  **`Attempt.Grave`** are the attempts that fail with an error on record;
* **`Attempt.comesTo_file_iff`**: for a file, the table has just one row;
* **`Attempt.exact`**: so it has for every attempt;
* **`Tree.follows_slot`**, **`Tree.follows_domain`**, **`Tree.follows_package`** and so on:
  what opens files makes just the attempts that `zoneAttempts`, `domainAttempts`,
  `Tree.packageAttempts` list;
* **`diagnostics_match_what_happened`** puts them together.
-/

namespace PowerZones

open PowerZones.Action

/-! ## Attempts -/

/-- What is tried on the way to a handle. -/
inductive Attempt where
  /-- To open the file of an attribute. -/
  | file (a : Address) (attr : Attribute)
  /-- To put the constraints of a RAPL zone in order. -/
  | ordered (zones : List UInt32)
  /-- To read the name of a RAPL zone once. -/
  | name (zones : List UInt32)
  /-- To tell the domain of a RAPL zone by its name. -/
  | recognized (zones : List UInt32)
  /-- To find a zone below a package of another domain than those before. -/
  | fresh (id index : UInt32)
  /-- To count the zones below a package. -/
  | counted (id : UInt32)

section Table

variable (t : Tree) (readOnly : Bool) (host : Host)

/-- The constraint that is expected for a term has a name, and not that of the term. -/
def Tree.MisnamedAt (zones : List UInt32) (term : Term) : Prop :=
  ∃ name, ((t.constraintName (raplAddress zones) term.number).run host).result = .ok name ∧
    name ≠ term.label

/-- The constraints of a RAPL zone are the other way round. -/
def Tree.SwappedAt (zones : List UInt32) : Prop :=
  t.MisnamedAt host zones .long ∧ t.MisnamedAt host zones .short

/-- What an attempt comes to on a host: a record or none, and a failure or none. -/
inductive Attempt.ComesTo : Attempt → Option Record → Option Failure → Prop
  | unresolved {a : Address} {attr : Attribute} {e : Failure} :
    t.attributePath a attr = .error e → ComesTo (.file a attr) none (some e)
  | absent {a : Address} {attr : Attribute} {path : String} :
    t.attributePath a attr = .ok path →
    host.files.access path (attr.wanted readOnly) = .error .noEntry →
    ComesTo (.file a attr) (some ⟨.debug, "open: " ++ path ++ ": " ++ OsError.noEntry.message⟩) none
  | opened {a : Address} {attr : Attribute} {path : String} {node : NodeId} {grant : Grant} :
    t.attributePath a attr = .ok path → host.files.Grants attr readOnly path node grant →
    ComesTo (.file a attr) none none
  | denied {a : Address} {attr : Attribute} {path : String} {why : OsError} :
    t.attributePath a attr = .ok path →
    host.files.access path (attr.wanted readOnly) = .error why → why ≠ .noEntry →
    ¬(why = .accessDenied ∧ attr = .zone .energy ∧ readOnly = false) →
    ComesTo (.file a attr) (some ⟨.error, "open: " ++ path ++ ": " ++ why.message⟩)
      (some (.ofOpening path why))
  | deniedAgain {a : Address} {attr : Attribute} {path : String} {why : OsError} :
    t.attributePath a attr = .ok path → attr = .zone .energy → readOnly = false →
    host.files.access path .readWrite = .error .accessDenied →
    host.files.access path .read = .error why →
    ComesTo (.file a attr) (some ⟨.error, "open (RO): " ++ path ++ ": " ++ why.message⟩)
      (some (.ofOpening path why))
  | swapped {zones : List UInt32} :
    t.SwappedAt host zones →
    ComesTo (.ordered zones) (some ⟨.warn, PowerDomain.swapText (raplAddress zones)⟩) none
  | kept {zones : List UInt32} :
    ¬t.SwappedAt host zones → ComesTo (.ordered zones) none none
  | named {zones : List UInt32} {name : String} :
    ((t.zoneName (raplAddress zones)).run host).result = .ok name →
    ComesTo (.name zones) none none
  | unnamed {zones : List UInt32} {e : Failure} :
    ((t.zoneName (raplAddress zones)).run host).result = .error e →
    ComesTo (.name zones) none (some e)
  | recognized {zones : List UInt32} {k : Domain} :
    t.kind? host zones = some k → ComesTo (.recognized zones) none none
  | unrecognized {zones : List UInt32} {name : String} :
    ((t.zoneName (raplAddress zones)).run host).result = .ok name →
    Domain.classify name = none →
    ComesTo (.recognized zones) (some ⟨.error, unrecognizedText name (raplAddress zones)⟩)
      (some (.unrecognizedDomain name))
  | fresh {id index : UInt32} {k : Domain} :
    t.kind? host [id, index] = some k → k ∉ (packagePaths id index).filterMap (t.kind? host) →
    ComesTo (.fresh id index) none none
  | duplicate {id index : UInt32} {k : Domain} :
    t.kind? host [id, index] = some k → k ∈ (packagePaths id index).filterMap (t.kind? host) →
    ComesTo (.fresh id index) (some ⟨.error, duplicateText k id index⟩)
      (some (.duplicateDomain k id index))
  | counted {id count : UInt32} :
    t.zoneCount host.files (raplAddress [id]) = .ok count → ComesTo (.counted id) none none
  | uncounted {id : UInt32} {e : Failure} :
    t.zoneCount host.files (raplAddress [id]) = .error e → ComesTo (.counted id) none (some e)

/-- An attempt fails for what is worth an error on record: a file that is there cannot be
opened, the name of a zone tells no domain, or one that was met before. -/
inductive Attempt.Grave : Attempt → Failure → Prop
  | denied {a : Address} {attr : Attribute} {path : String} {why : OsError} :
    t.attributePath a attr = .ok path → host.files.Denies attr readOnly path why →
    Grave (.file a attr) (.ofOpening path why)
  | unrecognized {zones : List UInt32} {name : String} :
    ((t.zoneName (raplAddress zones)).run host).result = .ok name →
    Domain.classify name = none → Grave (.recognized zones) (.unrecognizedDomain name)
  | duplicate {id index : UInt32} {k : Domain} :
    t.kind? host [id, index] = some k → k ∈ (packagePaths id index).filterMap (t.kind? host) →
    Grave (.fresh id index) (.duplicateDomain k id index)

end Table

/-! ### One row for each attempt -/

/-- What opening the file of an attribute leaves on record and fails with, by the verdict on
its path. -/
def Tree.toldOf (t : Tree) (fs : FileSystem) (a : Address) (attr : Attribute) (readOnly : Bool) :
    Option Record × Option Failure :=
  match t.attributePath a attr with
  | .error e => (none, some e)
  | .ok path =>
    match fs.judge path (!readOnly && attr.writable) attr.fallsBack with
    | .granted _ _ _ => (none, none)
    | .missing => (some ⟨.debug, openingText false path .noEntry⟩, none)
    | .refused retried why =>
      (some ⟨.error, openingText retried path why⟩, some (.ofOpening path why))

namespace Attempt

variable {t : Tree} {readOnly : Bool} {host : Host} {a : Address} {attr : Attribute} {x : Attempt}
  {r r' : Option Record} {e? e?' : Option Failure}

theorem toldOf_of_comesTo (h : ComesTo t readOnly host (.file a attr) r e?) :
    (r, e?) = t.toldOf host.files a attr readOnly := by
  unfold Tree.toldOf
  cases h with
  | unresolved hpath => simp only [hpath]
  | absent hpath hlacks =>
    simp only [hpath, FileSystem.judge_of_lacks hlacks]
    rfl
  | opened hpath hgrants => simp only [hpath, FileSystem.judge_of_grants hgrants]
  | denied hpath haccess hsome hfirst =>
    simp only [hpath, FileSystem.judge_of_asked haccess hsome hfirst]
    rfl
  | deniedAgain hpath hattr hread hdenied haccess =>
    simp only [hpath, FileSystem.judge_of_retried hattr hread hdenied haccess]
    rfl

/-- Every file has a row. -/
theorem exists_comesTo_file (t : Tree) (readOnly : Bool) (host : Host) (a : Address)
    (attr : Attribute) : ∃ r e?, ComesTo t readOnly host (.file a attr) r e? := by
  cases hpath : t.attributePath a attr with
  | error e => exact ⟨_, _, .unresolved hpath⟩
  | ok path =>
    rcases host.files.lacks_or_grants_or_denies attr readOnly path with
      hlacks | ⟨node, grant, hgrants⟩ | ⟨why, hdenies⟩
    · exact ⟨_, _, .absent hpath hlacks⟩
    · exact ⟨_, _, .opened hpath hgrants⟩
    · cases hdenies with
      | asked haccess hsome hfirst => exact ⟨_, _, .denied hpath haccess hsome hfirst⟩
      | retried hattr hread hdenied haccess =>
        exact ⟨_, _, .deniedAgain hpath hattr hread hdenied haccess⟩

/-- What the table says of a file is what the verdict on its path says. -/
theorem comesTo_file_iff :
    ComesTo t readOnly host (.file a attr) r e? ↔ (r, e?) = t.toldOf host.files a attr readOnly := by
  refine ⟨toldOf_of_comesTo, fun h => ?_⟩
  obtain ⟨r', e?', hrow⟩ := exists_comesTo_file t readOnly host a attr
  obtain ⟨rfl, rfl⟩ := Prod.mk.inj (h.trans (toldOf_of_comesTo hrow).symm)
  exact hrow

/-- The table has no more than one row for an attempt. -/
theorem comesTo_unique (h : ComesTo t readOnly host x r e?)
    (h' : ComesTo t readOnly host x r' e?') : r = r' ∧ e? = e?' := by
  cases x with
  | file a attr => exact Prod.mk.inj ((comesTo_file_iff.mp h).trans (comesTo_file_iff.mp h').symm)
  | recognized zones =>
    -- a zone that is recognised has a name, and one that tells a domain
    have hno {k : Domain} {name : String} (hkind : t.kind? host zones = some k)
        (hname : ((t.zoneName (raplAddress zones)).run host).result = .ok name) :
        Domain.classify name ≠ none := by
      unfold Tree.kind? at hkind
      rw [hname] at hkind
      rw [show Domain.classify name = some k from hkind]
      exact Option.some_ne_none k
    cases h with
    | recognized hkind =>
      cases h' with
      | recognized => exact ⟨rfl, rfl⟩
      | unrecognized hname hnone => exact absurd hnone (hno hkind hname)
    | unrecognized hname hnone =>
      cases h' with
      | recognized hkind => exact absurd hnone (hno hkind hname)
      | unrecognized hname' =>
        obtain rfl := Except.ok.inj (hname.symm.trans hname')
        exact ⟨rfl, rfl⟩
  | fresh id index =>
    have hsame {k k' : Domain} (hkind : t.kind? host [id, index] = some k)
        (hkind' : t.kind? host [id, index] = some k') : k = k' :=
      Option.some.inj (hkind.symm.trans hkind')
    cases h with
    | fresh hkind hnew =>
      cases h' with
      | fresh => exact ⟨rfl, rfl⟩
      | duplicate hkind' hmet => exact absurd (hsame hkind' hkind ▸ hmet) hnew
    | duplicate hkind hmet =>
      cases h' with
      | fresh hkind' hnew => exact absurd (hsame hkind hkind' ▸ hmet) hnew
      | duplicate hkind' =>
        obtain rfl := hsame hkind hkind'
        exact ⟨rfl, rfl⟩
  | _ => cases h <;> cases h' <;> simp_all

/-- The table is exact: one row at most for each attempt, and an error on record just where
the attempt is grave. -/
theorem exact (t : Tree) (readOnly : Bool) (host : Host) :
    Account.Exact (ComesTo t readOnly host) (Grave t readOnly host) where
  unique := comesTo_unique
  grave_iff := by
    intro x e
    constructor
    · intro h
      cases h with
      | denied hpath hdenies =>
        cases hdenies with
        | asked haccess hsome hfirst => exact ⟨_, .denied hpath haccess hsome hfirst, rfl⟩
        | retried hattr hread hdenied haccess =>
          exact ⟨_, .deniedAgain hpath hattr hread hdenied haccess, rfl⟩
      | unrecognized hname hnone => exact ⟨_, .unrecognized hname hnone, rfl⟩
      | duplicate hkind hmem => exact ⟨_, .duplicate hkind hmem, rfl⟩
    · rintro ⟨r, h, -⟩
      cases h with
      | denied hpath haccess hsome hfirst => exact .denied hpath (.asked haccess hsome hfirst)
      | deniedAgain hpath hattr hread hdenied haccess =>
        exact .denied hpath (.retried hattr hread hdenied haccess)
      | unrecognized hname hnone => exact .unrecognized hname hnone
      | duplicate hkind hmem => exact .duplicate hkind hmem
  passing := by
    intro x r h
    cases h with
    | absent => exact nofun
    | swapped => exact nofun

end Attempt

/-! ## What is tried -/

/-- The attempts at the files of a zone, in their order. -/
def zoneAttempts (a : Address) : List Attempt :=
  (Vocabulary.members : List ZoneAttribute).map fun attr => .file a (.zone attr)

/-- The attempts at the files of a constraint, in their order. -/
def constraintAttempts (a : Address) (number : UInt32) : List Attempt :=
  (Vocabulary.members : List ConstraintAttribute).map fun attr => .file a (.constraint number attr)

/-- The attempts at a RAPL zone with its constraints. -/
def domainAttempts (zones : List UInt32) : List Attempt :=
  zoneAttempts (raplAddress zones) ++
    (constraintAttempts (raplAddress zones) Term.long.number ++
      (constraintAttempts (raplAddress zones) Term.short.number ++ [.ordered zones]))

/-- The attempts at the domain of a RAPL zone. -/
def identityAttempts (zones : List UInt32) : List Attempt :=
  [.name zones, .recognized zones]

/-- The attempts at a zone below a package. -/
def subzoneAttempts (id index : UInt32) : List Attempt :=
  identityAttempts [id, index] ++ .fresh id index :: domainAttempts [id, index]

/-- The attempts at the zones below a package, as far as they can be counted. -/
def Tree.subzonesAttempts (t : Tree) (fs : FileSystem) (id : UInt32) : List Attempt :=
  match t.zoneCount fs (raplAddress [id]) with
  | .ok count => (indicesBelow count).flatMap (subzoneAttempts id)
  | .error _ => []

/-- The attempts at a package: first its top-level zone, then those below it. -/
def Tree.packageAttempts (t : Tree) (fs : FileSystem) (id : UInt32) : List Attempt :=
  identityAttempts [id] ++ (domainAttempts [id] ++ .counted id :: t.subzonesAttempts fs id)

/-! ## Surveys follow the attempts -/

/-- A logger that lets records for debugging pass lets pass whatever is no less grave. -/
theorem Logger.filter_of_debug {logger : Logger} (h : logger.verbosity.passes .debug = true)
    {r : Record} (hr : r.severity.rank ≤ Severity.debug.rank) : logger.filter r = [r] := by
  have hpasses : logger.verbosity.passes r.severity = true := by
    cases hv : logger.verbosity with
    | off => rw [hv] at h; cases h
    | downTo least =>
      rw [hv] at h
      exact decide_eq_true (Nat.le_trans hr (of_decide_eq_true h))
  rw [Logger.filter, if_pos hpasses]

/-- A record that passes is the first of all that follow. -/
theorem Survey.records_note_bind {α : Type} {logger : Logger}
    (h : logger.verbosity.passes .debug = true) {severity : Severity}
    (hrank : severity.rank ≤ Severity.debug.rank) (text : String) (f : Unit → Survey α)
    (fs : FileSystem) :
    (note logger severity text >>= f).records fs = ⟨severity, text⟩ :: (f ()).records fs := by
  show logger.filter ⟨severity, text⟩ ++ (f ()).records fs = _
  rw [Logger.filter_of_debug h hrank]
  rfl

/-- Readings that agree have the same values. -/
theorem SameReading.ok_iff {α : Type} {handle once : Except Failure α} {x : α}
    (h : SameReading handle once) : handle = .ok x ↔ once = .ok x := by
  constructor
  · rintro rfl
    exact (h.otherwise nofun).symm
  · rintro rfl
    refine h.otherwise fun hno => ?_
    obtain ⟨path, hpath⟩ := h.unsupported.mp hno
    cases hpath

/-- A table takes the attempts of its attributes, in their order. -/
theorem Survey.follows_table {α : Type} {A : Account Attempt} {fs : FileSystem} {f : α → Attempt}
    {surveyOne : α → Survey (Option Backing)} (h : ∀ x, (surveyOne x).Follows A fs [f x])
    (xs : List α) : (table surveyOne xs).Follows A fs (xs.map f) := by
  induction xs with
  | nil => exact follows_pure []
  | cons x rest ih => exact (h x).bind fun found _ => ih.returns

/-- A constraint is misnamed just if reading its name once says so. -/
theorem Tree.misnamed_iff {t : Tree} {readOnly : Bool} {host : Host} {zones : List UInt32}
    {term : Term} {table : Table ConstraintAttribute}
    (h : (t.surveyConstraint (raplAddress zones) readOnly term.number).result host.files =
      .ok table) :
    ConstraintBacking.misnamed ⟨term.number, table⟩ term host.files = true ↔
      t.MisnamedAt host zones term := by
  obtain ⟨found, hfound, hlook⟩ := Survey.lookup_table h (Vocabulary.complete .name)
  have hname : ConstraintBacking.name ⟨term.number, table⟩ host.files =
      found.elim (.error .unsupported) fun b => host.files.nameAt b.node := by
    rw [ConstraintBacking.name, hlook]
    rfl
  have honce : ((t.constraintName (raplAddress zones) term.number).run host).result = _ :=
    (t.realizes_readName _ _).result_eq
  have hsame : SameReading (ConstraintBacking.name ⟨term.number, table⟩ host.files)
      ((t.constraintName (raplAddress zones) term.number).run host).result := by
    rw [hname, honce]
    exact sameReading_of_standsOn (FileSystem.valueAt_ne _ _ _) hfound
  unfold MisnamedAt ConstraintBacking.misnamed
  simp only [← hsame.ok_iff]
  cases ConstraintBacking.name ⟨term.number, table⟩ host.files <;> simp

namespace Tree

variable {t : Tree} (hloud : t.logger.verbosity.passes .debug = true) (readOnly : Bool)
  (host : Host) (a : Address)

include hloud

/-- The slot for an attribute takes one attempt. -/
theorem follows_slot (attr : Attribute) :
    (t.surveySlot a attr (!readOnly && attr.writable)).Follows (Attempt.ComesTo t readOnly host)
      host.files [.file a attr] := by
  have hnote {severity : Severity} (hrank : severity.rank ≤ Severity.debug.rank) (text : String)
      {find : FileSystem → Except Failure (Option Backing)} :
      (do Survey.note t.logger severity text; Survey.look find).records host.files =
        [⟨severity, text⟩] :=
    Survey.records_note_bind hloud hrank text _ _
  suffices h : ∃ r e?, (r, e?) = t.toldOf host.files a attr readOnly ∧
      failureOf ((t.surveySlot a attr (!readOnly && attr.writable)).result host.files) = e? ∧
      (t.surveySlot a attr (!readOnly && attr.writable)).records host.files = r.toList by
    obtain ⟨r, e?, htold, rfl, hrecords⟩ := h
    exact Survey.follows_single (Attempt.comesTo_file_iff.mpr htold) hrecords
  unfold toldOf surveySlot
  cases t.attributePath a attr with
  | error e => exact ⟨_, _, rfl, rfl, rfl⟩
  | ok path =>
    simp only [Survey.records_bind, Survey.result_bind, Survey.result_ofExcept, Survey.result_look,
      Except.bind]
    cases host.files.judge path (!readOnly && attr.writable) attr.fallsBack with
    | granted node access grant => exact ⟨_, _, rfl, rfl, rfl⟩
    | missing => exact ⟨_, _, rfl, rfl, hnote (by decide) _⟩
    | refused retried why => exact ⟨_, _, rfl, rfl, hnote (by decide) _⟩

theorem follows_zone : (t.surveyZone a readOnly).Follows (Attempt.ComesTo t readOnly host)
    host.files (zoneAttempts a) :=
  Survey.follows_table (fun attr => follows_slot hloud readOnly host a (.zone attr)) _

theorem follows_constraint (number : UInt32) :
    (t.surveyConstraint a readOnly number).Follows (Attempt.ComesTo t readOnly host) host.files
      (constraintAttempts a number) :=
  Survey.follows_table (fun attr => follows_slot hloud readOnly host a (.constraint number attr)) _

variable (zones : List UInt32)

/-- Putting the constraints in order is a warning just where they are the other way round. -/
theorem follows_order {zone : ZoneBacking} {long short : Table ConstraintAttribute}
    (hlong : (t.surveyConstraint (raplAddress zones) readOnly Term.long.number).result host.files =
      .ok long)
    (hshort : (t.surveyConstraint (raplAddress zones) readOnly Term.short.number).result
      host.files = .ok short) :
    (DomainBacking.order t.logger (raplAddress zones)
      ⟨zone, ⟨Term.long.number, long⟩, ⟨Term.short.number, short⟩⟩).Follows
      (Attempt.ComesTo t readOnly host) host.files [.ordered zones] := by
  have hswapped : (ConstraintBacking.misnamed ⟨Term.long.number, long⟩ .long host.files &&
      ConstraintBacking.misnamed ⟨Term.short.number, short⟩ .short host.files) = true ↔
      t.SwappedAt host zones := by
    rw [Bool.and_eq_true, misnamed_iff hlong, misnamed_iff hshort, SwappedAt]
  have hlook (misnamed : FileSystem → Bool) : (Survey.look fun fs => .ok (misnamed fs)).Follows
      (Attempt.ComesTo t readOnly host) host.files [] := Survey.follows_look rfl
  refine (hlook _).bind fun longMisnamed heq => (hlook _).bind fun shortMisnamed heq' => ?_
  obtain rfl := Except.ok.inj heq
  obtain rfl := Except.ok.inj heq'
  split
  next h =>
    exact Survey.follows_single (.swapped (hswapped.mp h))
      (Survey.records_note_bind hloud (by decide) _ _ _)
  next h => exact Survey.follows_single (.kept fun hno => h (hswapped.mpr hno)) rfl

theorem follows_domain : (t.surveyDomain readOnly zones).Follows (Attempt.ComesTo t readOnly host)
    host.files (domainAttempts zones) :=
  (follows_zone hloud readOnly host _).bind fun _ _ =>
    (follows_constraint hloud readOnly host _ _).bind fun _ hlong =>
      (follows_constraint hloud readOnly host _ _).bind fun _ hshort =>
        follows_order hloud readOnly host zones hlong hshort

theorem follows_identity :
    (t.surveyIdentity zones).Follows (Attempt.ComesTo t readOnly host) host.files
      (identityAttempts zones) := by
  have honce : ((t.zoneName (raplAddress zones)).run host).result =
      (t.surveyName (raplAddress zones) (.zone .name)).result host.files :=
    (t.realizes_readName _ _).result_eq
  have hname : (t.surveyName (raplAddress zones) (.zone .name)).Follows
      (Attempt.ComesTo t readOnly host) host.files [.name zones] := by
    refine Survey.follows_single (r := none) ?_ rfl
    cases hresult : (t.surveyName (raplAddress zones) (.zone .name)).result host.files with
    | ok name => exact .named (honce.trans hresult)
    | error e => exact .unnamed (honce.trans hresult)
  refine hname.bind fun name hok => ?_
  have hread := honce.trans hok
  cases hclass : Domain.classify name with
  | some k =>
    have hkind : t.kind? host zones = some k := by
      unfold kind?
      rw [hread, ← hclass]
    exact Survey.follows_single (.recognized hkind) rfl
  | none =>
    exact Survey.follows_stop (.unrecognized hread hclass) rfl
      (Survey.records_note_bind hloud (by decide) _ _ _)

variable (id : UInt32)

theorem follows_subzone {index : UInt32} {met : DomainTable}
    (hmet : met.map Prod.fst = (packagePaths id index).filterMap (t.kind? host)) :
    (t.surveySubzone readOnly id met index).Follows (Attempt.ComesTo t readOnly host) host.files
      (subzoneAttempts id index) := by
  refine (follows_identity hloud readOnly host _).bind fun k hk => ?_
  have hkind := kind?_eq_some_iff.mpr hk
  split
  next hsome =>
    have hmem := Keyed.isSome_lookup_iff.mp hsome
    exact Survey.follows_stop (.duplicate hkind (hmet ▸ hmem)) rfl
      (Survey.records_note_bind hloud (by decide) _ _ _)
  next hnone =>
    have hnew : k ∉ met.map Prod.fst := fun hmem => hnone (Keyed.isSome_lookup_iff.mpr hmem)
    exact .cons (.fresh hkind (hmet ▸ hnew)) (follows_domain hloud readOnly host _).returns

/-- The loop makes the attempts of the zones that are left, given the domains of those
before. -/
theorem follows_subzones {count : UInt32} (done : List UInt32) {indices : List UInt32}
    {met : DomainTable} (hsplit : indicesBelow count = done ++ indices)
    (hmet : met.map Prod.fst =
      ([id] :: done.map fun index => [id, index]).filterMap (t.kind? host)) :
    (t.surveySubzones readOnly id met indices).Follows (Attempt.ComesTo t readOnly host)
      host.files (indices.flatMap (subzoneAttempts id)) := by
  induction indices generalizing done met with
  | nil => exact Survey.follows_pure met
  | cons index rest ih =>
    have hbefore : met.map Prod.fst = (packagePaths id index).filterMap (t.kind? host) := by
      rw [hmet, packagePaths, ← indicesBelow_split hsplit]
    refine (follows_subzone hloud readOnly host id hbefore).bind fun d hd =>
      ih (done ++ [index]) ?_ ?_
    · rw [hsplit, List.append_assoc, List.singleton_append]
    · -- the zone was recognised as what was found for it
      have hkind := kind?_eq_some_iff.mpr (surveySubzone_eq_ok.mp hd).1.identity
      rw [List.map_append, List.map_append, hmet, ← List.cons_append, List.filterMap_append]
      simp [hkind]

theorem follows_package :
    (t.surveyPackage readOnly id).Follows (Attempt.ComesTo t readOnly host) host.files
      (t.packageAttempts host.files id) := by
  refine (follows_identity hloud readOnly host _).bind fun k hk =>
    (follows_domain hloud readOnly host _).bind fun d _ => ?_
  unfold subzonesAttempts
  cases hcount : t.zoneCount host.files (raplAddress [id]) with
  | error e =>
    refine Survey.follows_stop (r := none) (.uncounted hcount) ?_ ?_
    · rw [Survey.result_bind, Survey.result_look, hcount]
      rfl
    · rw [Survey.records_bind, Survey.result_look, hcount]
      rfl
  | ok count =>
    have hcounted : (Survey.look fun fs => t.zoneCount fs (raplAddress [id])).Follows
        (Attempt.ComesTo t readOnly host) host.files [.counted id] := by
      refine Survey.follows_single (r := none) ?_ rfl
      rw [Survey.result_look, hcount]
      exact .counted hcount
    refine hcounted.bind fun count' hcount' => ?_
    obtain rfl := Except.ok.inj (hcount.symm.trans hcount')
    exact follows_subzones hloud readOnly host id [] rfl (by simp [kind?_eq_some_iff.mpr hk])

end Tree

/-- The outcome of an opening is told by the attempts that it takes. -/
def Tree.Diagnoses {α : Type} (t : Tree) (readOnly : Bool) (host : Host) (attempts : List Attempt)
    (outcome : Outcome α) : Prop :=
  Account.Diagnosed (Attempt.ComesTo t readOnly host) (Attempt.Grave t readOnly host) attempts
    outcome

/-- **Diagnostics match what happened.** With a logger that lets records for debugging pass,
zones, constraints, control types and packages are opened by a list of attempts, and what is
on record is what these come to, in order, up to the first that fails. If that is a file
denied, a zone not recognised or one of a domain met before, the records end with the only
error; otherwise there is none. -/
theorem diagnostics_match_what_happened {t : Tree}
    (hloud : t.logger.verbosity.passes .debug = true) (readOnly : Bool) (host : Host) :
    (∀ a, t.Diagnoses readOnly host (zoneAttempts a) ((t.openZone a readOnly).run host)) ∧
    (∀ a number, t.Diagnoses readOnly host (constraintAttempts a number)
      ((t.openConstraint a number readOnly).run host)) ∧
    (∀ name, t.Diagnoses readOnly host [.file { controlType := name } (.controlType .enabled)]
      ((t.openControlType name readOnly).run host)) ∧
    ∀ id, t.Diagnoses readOnly host (t.packageAttempts host.files id)
      ((t.openPackage id readOnly).run host) := by
  have hexact := Attempt.exact t readOnly host
  refine ⟨fun a => ?_, fun a number => ?_, fun name => ?_, fun id => ?_⟩
  · exact (t.realizes_openZone a readOnly host).diagnosed hexact
      (Tree.follows_zone hloud readOnly host a)
  · exact (t.realizes_openConstraint a readOnly host number).diagnosed hexact
      (Tree.follows_constraint hloud readOnly host a number)
  · have hslot := Tree.follows_slot hloud readOnly host { controlType := name }
      (.controlType .enabled)
    rw [Attribute.writable, Bool.and_true] at hslot
    exact (t.realizes_openControlType readOnly host name).diagnosed hexact hslot
  · exact (t.realizes_openPackage readOnly id host).diagnosed hexact
      (Tree.follows_package hloud readOnly host id)

/-- The zone that may only be read, opened for writing too: a record for each file that is
absent, none for the energy counter, and an error for the switch, after which the name is not
tried. -/
theorem diagnostics_match_what_happened_unwritable :
    let t : Tree := { root := "/powercap", logger := { verbosity := .downTo .debug } }
    let a : Address := { controlType := "dtpm", zones := [0] }
    let host : Host := .ofFiles unwritableZone
    let outcome := (t.openZone a false).run host
    t.logger.verbosity.passes .debug = true ∧
      outcome.records = [
        ⟨.debug, "open: /powercap/dtpm/dtpm:0/max_energy_range_uj: No such file or directory (os error 2)"⟩,
        ⟨.debug, "open: /powercap/dtpm/dtpm:0/max_power_range_uw: No such file or directory (os error 2)"⟩,
        ⟨.debug, "open: /powercap/dtpm/dtpm:0/power_uw: No such file or directory (os error 2)"⟩,
        ⟨.error, "open: /powercap/dtpm/dtpm:0/enabled: Permission denied (os error 13)"⟩] ∧
      t.Diagnoses false host (zoneAttempts a) outcome := by
  intro t a host outcome
  have hloud : t.logger.verbosity.passes .debug = true := by decide
  exact ⟨hloud, by decide +kernel, (diagnostics_match_what_happened hloud false host).1 a⟩

end PowerZones
