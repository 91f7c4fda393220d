import PowerZones.Proofs.Entity.EverOpened
import PowerZones.Proofs.Entity.Ownership
import PowerZones.Proofs.Rapl.Checks
import PowerZones.Proofs.Rapl.Order
import Mathlib.Algebra.GroupWithZero.Nat

/-!
# Domains met twice

No two zones of a package may be of one domain. The second one is told to be a duplicate
by its name, before anything of it is opened.

* **`Unrepeated`**: only the round of a zone below a package ever tells a duplicate;
* **`Tree.surveySubzones_eq_error`**: the loop fails where a round does, after the rounds
  before it;
* **`Tree.MeetsTwice`** is when a domain is met for the second time, and
  **`Tree.openPackage_eq_duplicate`** that the package tells it then and only then;
* **`Tree.everOpened_of_duplicate`**: nothing of the duplicate is opened but its name.
-/

namespace PowerZones

open PowerZones.Action

/-! ## Who tells a duplicate -/

/-- Something never comes to a duplicate. -/
def Unrepeated {α : Type} (r : Except Failure α) : Prop :=
  ∀ k id index, r ≠ .error (.duplicateDomain k id index)

namespace Unrepeated

variable {α β : Type} {fs : FileSystem}

theorem ok (x : α) : Unrepeated (.ok x : Except Failure α) := by
  intro k id index h
  cases h

theorem error {e : Failure} (h : ∀ k id index, e ≠ .duplicateDomain k id index) :
    Unrepeated (.error e : Except Failure α) :=
  fun k id index heq => h k id index (Except.error.inj heq)

theorem bind {r : Except Failure α} {f : α → Except Failure β} (hr : Unrepeated r)
    (hf : ∀ x, Unrepeated (f x)) : Unrepeated (r.bind f) := by
  cases r with
  | ok x => exact hf x
  | error e => exact fun k id index h => hr k id index (by cases h; rfl)

theorem mapError {ε : Type} {r : Except ε α} {f : ε → Failure}
    (hf : ∀ e k id index, f e ≠ .duplicateDomain k id index) : Unrepeated (r.mapError f) := by
  cases r with
  | ok x => exact ok x
  | error e => exact error (hf e)

theorem checkSize (path : String) : Unrepeated (checkSize path) := by
  unfold PowerZones.checkSize
  split
  · exact error (by simp)
  · exact ok _

theorem zonePath (t : Tree) (a : Address) : Unrepeated (t.zonePath a) := by
  have hname : Unrepeated (checkControlType a.controlType) := by
    unfold checkControlType
    split
    · exact ok _
    · exact error (by simp)
  have hdepth : Unrepeated (checkDepth a.zones) := by
    unfold checkDepth
    split
    · exact error (by simp)
    · exact ok _
  exact hname.bind fun _ => hdepth.bind fun _ => checkSize _

theorem attributePath (t : Tree) (a : Address) (attr : Attribute) :
    Unrepeated (t.attributePath a attr) := by
  unfold Tree.attributePath
  split
  · exact error (by simp)
  · exact (zonePath t a).bind fun _ => checkSize _

theorem ofOpening_ne (path : String) (why : OsError) (k : Domain) (id index : UInt32) :
    Failure.ofOpening path why ≠ .duplicateDomain k id index := by
  cases why <;> simp [Failure.ofOpening]

theorem surveyName (t : Tree) (a : Address) (attr : Attribute) :
    Unrepeated ((t.surveyName a attr).result fs) := by
  refine bind (bind (attributePath t a attr) fun path => mapError fun why k id index => ?_)
    fun node => ?_
  · cases why <;> simp [Failure.ofOneShot, Failure.ofOpening]
  · unfold FileSystem.nameAt FileSystem.valueAt
    split
    · exact error (by simp)
    · exact mapError (by simp)

theorem surveyIdentity (t : Tree) (zones : List UInt32) :
    Unrepeated ((t.surveyIdentity zones).result fs) := by
  unfold Tree.surveyIdentity
  rw [Survey.result_bind]
  refine bind (surveyName t _ _) fun name => ?_
  split
  · exact ok _
  · rw [Survey.result_bind]
    exact bind (ok _) fun _ => error (by simp)

theorem surveySlot (t : Tree) (a : Address) (attr : Attribute) (write : Bool) :
    Unrepeated ((t.surveySlot a attr write).result fs) := by
  unfold Tree.surveySlot
  rw [Survey.result_bind]
  refine bind (attributePath t a attr) fun path => ?_
  rw [Survey.result_bind]
  refine bind (ok _) fun verdict => ?_
  cases verdict with
  | missing => exact ok _
  | granted node access grant => exact ok _
  | refused retried why => exact error (ofOpening_ne path why)

theorem table {surveyOne : α → Survey (Option Backing)}
    (h : ∀ x, Unrepeated ((surveyOne x).result fs)) (xs : List α) :
    Unrepeated ((Survey.table surveyOne xs).result fs) := by
  induction xs with
  | nil => exact ok _
  | cons x rest ih =>
    unfold Survey.table
    rw [Survey.result_bind]
    refine bind (h x) fun found => ?_
    rw [Survey.result_bind]
    exact ih.bind fun _ => ok _

theorem surveyDomain (t : Tree) (readOnly : Bool) (zones : List UInt32) :
    Unrepeated ((t.surveyDomain readOnly zones).result fs) := by
  have hconstraint (number : UInt32) :
      Unrepeated ((t.surveyConstraint (raplAddress zones) readOnly number).result fs) :=
    table (fun _ => surveySlot t _ _ _) _
  unfold Tree.surveyDomain
  rw [Survey.result_bind]
  refine bind (table (fun _ => surveySlot t _ _ _) _) fun zone => ?_
  rw [Survey.result_bind]
  refine bind (hconstraint _) fun longTerm => ?_
  rw [Survey.result_bind]
  refine bind (hconstraint _) fun shortTerm => ?_
  -- putting the constraints in order never fails at all
  obtain ⟨ordered, hordered⟩ := failureOf_eq_none_iff.mp (Tree.failureOf_order t.logger
    (raplAddress zones) ⟨⟨zones, zone⟩, ⟨Term.long.number, longTerm⟩,
      ⟨Term.short.number, shortTerm⟩⟩ fs)
  rw [hordered]
  exact ok ordered

theorem zoneCount (t : Tree) (fs : FileSystem) (a : Address) :
    Unrepeated (t.zoneCount fs a) := by
  have hprobe {present : UInt32 → Except Failure Bool} (h : ∀ i, Unrepeated (present i))
      (bound : Nat) (i : UInt32) : Unrepeated (probe present bound i) := by
    induction bound generalizing i with
    | zero => exact ok _
    | succ bound ih =>
      have hi := h i
      rw [probe]
      cases hpresent : present i with
      | error e => exact fun k id index heq => hi k id index (by rw [hpresent]; cases heq; rfl)
      | ok b =>
        cases b with
        | true => exact ih (i + 1)
        | false => exact ok _
  unfold Tree.zoneCount
  split
  · exact error (by simp)
  · exact hprobe (fun _ => (zonePath t _).bind fun _ => ok _) _ _

/-- What never comes to a duplicate has a result before a duplicate is told. -/
theorem bind_eq_error {r : Except Failure α} {f : α → Except Failure β} (hr : Unrepeated r)
    {k : Domain} {id index : UInt32} :
    r.bind f = .error (.duplicateDomain k id index) ↔
      ∃ x, r = .ok x ∧ f x = .error (.duplicateDomain k id index) := by
  cases r with
  | ok x => simp [Except.bind]
  | error e =>
    have hne : e ≠ .duplicateDomain k id index := fun h => hr k id index (h ▸ rfl)
    simp [Except.bind, hne]

end Unrepeated

/-! ## Where a domain is met for the second time -/

/-- On a host, a package has more zones below it than up to an index, the ones before that
index are recognised as these domains, no two of which are the same, and can be opened,
and the one with that index is recognised as one of these domains again. -/
structure Tree.MeetsTwice (t : Tree) (host : Host) (readOnly : Bool) (id index count : UInt32)
    (kinds : List Domain) (k : Domain) : Prop where
  counted : t.zoneCount host.files (raplAddress [id]) = .ok count
  below : index < count
  recognized : List.Forall₂ (t.Recognizes host) (packagePaths id index) kinds
  distinct : kinds.Nodup
  openable : ∀ zones ∈ packagePaths id index,
    ∃ d, ((t.openDomain zones readOnly).run host).result = .ok d
  again : t.Recognizes host [id, index] k
  met : k ∈ kinds

namespace Tree

variable {t : Tree} {readOnly : Bool} {host : Host} {fs : FileSystem} {id id' index : UInt32}
  {k : Domain}

/-- A round tells a duplicate where it recognises a domain that was met before. -/
theorem surveySubzone_eq_duplicate {met : DomainTable} {i : UInt32} :
    (t.surveySubzone readOnly id met i).result fs = .error (.duplicateDomain k id' index) ↔
      (id' = id ∧ index = i) ∧ (t.surveyIdentity [id, i]).result fs = .ok k ∧
        k ∈ met.map Prod.fst := by
  unfold surveySubzone
  rw [Survey.result_bind, (Unrepeated.surveyIdentity t _).bind_eq_error]
  constructor
  · rintro ⟨k', hk', h⟩
    split at h
    next hmet =>
      rw [Survey.result_bind] at h
      cases h
      exact ⟨⟨rfl, rfl⟩, hk', Keyed.isSome_lookup_iff.mp hmet⟩
    next =>
      rw [Survey.result_bind, (Unrepeated.surveyDomain t _ _).bind_eq_error] at h
      obtain ⟨_, _, hpure⟩ := h
      cases hpure
  · rintro ⟨⟨rfl, rfl⟩, hk, hmet⟩
    refine ⟨k, hk, ?_⟩
    rw [if_pos (Keyed.isSome_lookup_iff.mpr hmet)]
    rfl

/-- The loop fails where a round does, after the rounds before it. -/
theorem surveySubzones_eq_error {met : DomainTable} {indices : List UInt32} {e : Failure} :
    (t.surveySubzones readOnly id met indices).result fs = .error e ↔
      ∃ done i rest table, indices = done ++ i :: rest ∧
        (t.surveySubzones readOnly id met done).result fs = .ok table ∧
        (t.surveySubzone readOnly id table i).result fs = .error e := by
  induction indices generalizing met with
  | nil =>
    constructor
    · intro h
      cases h
    · rintro ⟨done, i, rest, _, hsplit, -⟩
      cases done <;> cases hsplit
  | cons first later ih =>
    rw [surveySubzones, Survey.result_bind]
    constructor
    · intro h
      cases hround : (t.surveySubzone readOnly id met first).result fs with
      | error e' =>
        rw [hround] at h
        cases h
        exact ⟨[], first, later, met, rfl, rfl, hround⟩
      | ok d =>
        rw [hround] at h
        obtain ⟨done, i, rest, table, rfl, hdone, hi⟩ := ih.mp h
        refine ⟨first :: done, i, rest, table, rfl, ?_, hi⟩
        exact Survey.result_bind_eq_ok.mpr ⟨d, hround, hdone⟩
    · rintro ⟨done, i, rest, table, hsplit, hdone, hi⟩
      cases done with
      | nil =>
        cases hsplit
        cases hdone
        rw [hi]
        rfl
      | cons _ done =>
        cases hsplit
        obtain ⟨d, hround, hdone⟩ := Survey.result_bind_eq_ok.mp hdone
        rw [hround]
        exact ih.mpr ⟨done, i, rest, table, rfl, hdone, hi⟩

/-- A package tells a duplicate where all zones before it are found, of different domains,
and the zone itself is recognised as one of these. -/
theorem surveyPackage_eq_duplicate :
    (t.surveyPackage readOnly id).result fs = .error (.duplicateDomain k id' index) ↔
      id' = id ∧ ∃ count table, t.zoneCount fs (raplAddress [id]) = .ok count ∧ index < count ∧
        List.Forall₂ (t.Found readOnly fs) (packagePaths id index) table ∧
        (table.map Prod.fst).Nodup ∧
        (t.surveyIdentity [id, index]).result fs = .ok k ∧ k ∈ table.map Prod.fst := by
  have hfirst (d : Domain × DomainBacking) : ([d].map Prod.fst).Nodup := List.nodup_singleton _
  unfold surveyPackage packagePaths
  simp only [Survey.result_bind, Survey.result_look, (Unrepeated.surveyIdentity t _).bind_eq_error,
    (Unrepeated.surveyDomain t _ _).bind_eq_error, (Unrepeated.zoneCount t _ _).bind_eq_error,
    surveySubzones_eq_error, surveySubzone_eq_duplicate]
  constructor
  · rintro ⟨k0, hk0, d0, hd0, count, hcount, done, i, rest, table, hsplit, hdone,
      ⟨rfl, rfl⟩, hk, hmet⟩
    obtain ⟨new, rfl, hnew, hnodup⟩ := (surveySubzones_eq_ok (hfirst _)).mp hdone
    have hbelow : index < count :=
      mem_indicesBelow.mp (hsplit ▸ List.mem_append_right _ List.mem_cons_self)
    rw [indicesBelow_split hsplit] at hnew
    exact ⟨rfl, count, _, hcount, hbelow, .cons ⟨hk0, hd0⟩ (List.forall₂_map_left_iff.mpr hnew),
      hnodup, hk, hmet⟩
  · rintro ⟨rfl, count, table, hcount, hbelow, hfound, hnodup, hk, hmet⟩
    obtain ⟨done, rest, hsplit⟩ := List.append_of_mem (mem_indicesBelow.mpr hbelow)
    cases hfound with
    | @cons _ d _ new htop hnew =>
      refine ⟨d.1, htop.identity, d.2, htop.domain, count, hcount, done, index, rest, d :: new,
        hsplit, (surveySubzones_eq_ok (hfirst _)).mpr ⟨new, rfl, ?_, hnodup⟩, ⟨rfl, rfl⟩, hk, hmet⟩
      rw [indicesBelow_split hsplit]
      exact List.forall₂_map_left_iff.mp hnew

/-- Opening a package tells a duplicate just where a domain is met for the second time. -/
theorem openPackage_eq_duplicate :
    ((t.openPackage id readOnly).run host).result = .error (.duplicateDomain k id' index) ↔
      id' = id ∧ ∃ count kinds, t.MeetsTwice host readOnly id index count kinds k := by
  rw [(t.realizes_openPackage readOnly id host).error_iff, surveyPackage_eq_duplicate]
  refine and_congr_right fun _ => exists_congr fun count => ?_
  constructor
  · rintro ⟨table, hcount, hbelow, hfound, hnodup, hk, hmet⟩
    obtain ⟨hrecognized, hopenable⟩ := foundAll_iff.mp ⟨table, rfl, hfound⟩
    exact ⟨_, hcount, hbelow, hrecognized, hnodup, hopenable, recognizes_iff.mpr hk, hmet⟩
  · rintro ⟨kinds, hcount, hbelow, hrecognized, hdistinct, hopenable, hagain, hmet⟩
    obtain ⟨table, rfl, hfound⟩ := foundAll_iff.mpr ⟨hrecognized, hopenable⟩
    exact ⟨table, hcount, hbelow, hfound, hdistinct, recognizes_iff.mp hagain, hmet⟩

end Tree

/-! ## What is opened before a duplicate is told -/

/-- The number of attributes of a table for which something was found. -/
def Table.size {α : Type} (table : Table α) : Nat :=
  (table.filterMap Prod.snd).length

/-- The number of slots of a power domain that are open. -/
def DomainBacking.size (b : DomainBacking) : Nat :=
  b.zone.table.size + b.longTerm.table.size + b.shortTerm.table.size

/-- What it takes to find domains: a reading of the name of each, and their slots. -/
def DomainTable.cost (table : DomainTable) : Nat :=
  (table.map fun d => d.2.size + 1).sum

theorem Slots.StandOn.length_descriptors {α : Type} {ds : Descriptors} {slots : Slots α}
    {table : Table α} (h : slots.StandOn ds table) : slots.descriptors.length = table.size := by
  induction h with
  | nil => rfl
  | @cons s found _ _ hs _ ih =>
    obtain ⟨key, slot⟩ := s
    obtain ⟨key', found⟩ := found
    rw [descriptors_cons, List.length_append, ih]
    cases hs.2 with
    | absent => exact Nat.zero_add _
    | opened _ => exact Nat.add_comm _ _

/-- A power domain has a descriptor for each slot that is open. -/
theorem PowerDomain.StandsOn.length_descriptors {ds : Descriptors} {d : PowerDomain}
    {b : DomainBacking} (h : d.StandsOn ds b) : d.descriptors.length = b.size := by
  have hzone := h.zone.slots.length_descriptors
  have hlong := h.longTerm.slots.length_descriptors
  have hshort := h.shortTerm.slots.length_descriptors
  rw [PowerDomain.descriptors, List.length_append, List.length_append, Zone.descriptors,
    Constraint.descriptors, Constraint.descriptors, hzone, hlong, hshort]
  rfl

theorem Constraint.opens_misnamed (c : Constraint) (term : Term) {before : Nat} :
    (c.misnamed term).Opens before fun _ => before := by
  refine opens_of_eq fun host => ?_
  obtain ⟨found, hrun, -⟩ := c.run_misnamed term host
  rw [hrun]

/-- Putting the constraints in order opens nothing. -/
theorem PowerDomain.opens_order (logger : Logger) (a : Address) (d : PowerDomain) (before : Nat) :
    (d.order logger a).Opens (before + d.descriptors.length)
      fun ordered => before + ordered.descriptors.length := by
  refine (d.longTerm.opens_misnamed .long).bind fun long => ?_
  refine (d.shortTerm.opens_misnamed .short).bind fun short => ?_
  split
  · refine (opens_of_eq fun _ => rfl).bind fun _ => opens_pure ?_
    rw [d.perm_descriptors_swap.length_eq]
  · exact opens_pure rfl

namespace Tree

variable (t : Tree) (readOnly : Bool) {host : Host} {id index : UInt32} {k : Domain}

theorem opens_openDomain (zones : List UInt32) {before : Nat} :
    (t.openDomain zones readOnly).Opens before fun d => before + d.descriptors.length := by
  refine (t.opens_openZone _ readOnly).bind fun zone => ?_
  refine (t.opens_openConstraint _ readOnly _).onFailure.bind fun longTerm => ?_
  refine (t.opens_openConstraint _ readOnly _).onFailure.bind fun shortTerm => ?_
  have horder := PowerDomain.opens_order t.logger (raplAddress zones) ⟨zone, longTerm, shortTerm⟩
    before
  simpa only [PowerDomain.descriptors, List.length_append, Nat.add_assoc] using horder

/-- A round that finds a domain reads a name and opens the domain. -/
theorem opens_openSubzone (id : UInt32) (met : List (Domain × PowerDomain)) (index : UInt32)
    {before : Nat} : (t.openSubzone id readOnly met index).Opens before
      fun d => before + (d.2.descriptors.length + 1) := by
  refine (t.opens_identify _).bind fun k => ?_
  split
  · exact (opens_of_eq fun _ => rfl).bind fun _ => opens_fail _
  · refine (t.opens_openDomain readOnly _).bind fun opened => opens_pure ?_
    rw [Nat.add_assoc, Nat.add_comm 1]

variable {t readOnly}

/-- A round that recognises a domain met before reads a name and opens nothing else. -/
theorem everOpened_openSubzone {met : List (Domain × PowerDomain)}
    (hk : (t.surveyIdentity [id, index]).result host.files = .ok k)
    (hmet : (met.lookup k).isSome = true) :
    ((t.openSubzone id readOnly met index).run host).host.everOpened = host.everOpened + 1 := by
  obtain ⟨_, next, hrun, -, -, rfl⟩ := (t.realizes_identify [id, index] host).exists_run hk
  have hopened := (t.opens_identify _).everOpened_eq hrun
  simp only [openSubzone, run_bind, hrun, hmet, if_true, run_note, run_fail]
  omega

/-- A loop that stops at a duplicate has read the names of all zones up to it, and has
opened the domains before it. -/
theorem everOpened_openSubzones {met : List (Domain × PowerDomain)} {before table : DomainTable}
    {done rest : List UInt32} (hmet : domainsStandOn host.descriptors met before)
    (hdone : (t.surveySubzones readOnly id before done).result host.files = .ok table)
    (hk : (t.surveyIdentity [id, index]).result host.files = .ok k)
    (hagain : k ∈ table.map Prod.fst) :
    ((t.openSubzones id readOnly met (done ++ index :: rest)).run host).host.everOpened +
      before.cost = host.everOpened + table.cost + 1 := by
  induction done generalizing met before host with
  | nil =>
    cases hdone
    have hround := (t.realizes_openSubzone readOnly id index hmet).error_iff.mpr
      (surveySubzone_eq_duplicate.mpr ⟨⟨rfl, rfl⟩, hk, hagain⟩)
    rw [← keys_eq_of_standOn hmet, ← Keyed.isSome_lookup_iff] at hagain
    have hopened : ((t.openSubzone id readOnly met index).run host).host.everOpened =
        host.everOpened + 1 := everOpened_openSubzone hk hagain
    rcases hrun : (t.openSubzone id readOnly met index).run host with ⟨result, next, records⟩
    rw [hrun] at hround hopened
    obtain rfl : result = _ := hround
    simp only [List.nil_append, openSubzones_cons, run_bind, onFailure, hrun, run_closeDomains,
      Host.everOpened_closing]
    simp only at hopened
    omega
  | cons first later ih =>
    obtain ⟨found, hround, hlater⟩ := Survey.result_bind_eq_ok.mp hdone
    obtain ⟨d, next, hrun, hfiles, hext, hkey, hstands⟩ :=
      (t.realizes_openSubzone readOnly id first hmet).exists_run hround
    have hopened := (t.opens_openSubzone readOnly id met first).everOpened_eq hrun
    -- the loop goes on from the host that the round leaves
    have hmet' : domainsStandOn next.descriptors (met ++ [d]) (before ++ [found]) :=
      List.rel_append (domainsStandOn_of_extends hmet hext) (.cons ⟨hkey, hstands⟩ .nil)
    have hrest := ih hmet' (hfiles ▸ hlater) (hfiles ▸ hk)
    have hcost : DomainTable.cost (before ++ [found]) = before.cost + (found.2.size + 1) := by
      simp [DomainTable.cost]
    simp only [List.cons_append, openSubzones_cons, run_bind, onFailure, hrun]
    rw [hstands.length_descriptors] at hopened
    omega

/-- Domains that were found can be opened, at their cost. -/
theorem exists_domains_of_found {paths : List (List UInt32)} {table : DomainTable}
    (h : List.Forall₂ (t.Found readOnly host.files) paths table) :
    ∃ ds : List PowerDomain,
      List.Forall₂ (fun zones d => ((t.openDomain zones readOnly).run host).result = .ok d)
        paths ds ∧ (ds.map fun d => d.descriptors.length + 1).sum = table.cost := by
  induction h with
  | nil => exact ⟨[], .nil, rfl⟩
  | @cons zones found _ table hfound _ ih =>
    obtain ⟨ds, hds, hsum⟩ := ih
    obtain ⟨d, _, hrun, -, -, hstands⟩ :=
      (t.realizes_openDomain readOnly zones host).exists_run hfound.domain
    refine ⟨d :: ds, .cons (by rw [hrun]) hds, ?_⟩
    rw [List.map_cons, List.sum_cons, hsum, hstands.length_descriptors]
    rfl

/-- A package that tells a duplicate has read the names of its zones up to that one, and
has opened the domains before it, but nothing of that one. -/
theorem everOpened_of_duplicate {id' : UInt32}
    (h : ((t.openPackage id readOnly).run host).result = .error (.duplicateDomain k id' index)) :
    ∃ ds : List PowerDomain,
      List.Forall₂ (fun zones d => ((t.openDomain zones readOnly).run host).result = .ok d)
        (packagePaths id index) ds ∧
      ((t.openPackage id readOnly).run host).host.everOpened =
        host.everOpened + (ds.map fun d => d.descriptors.length + 1).sum + 1 := by
  rw [(t.realizes_openPackage readOnly id host).error_iff, surveyPackage_eq_duplicate] at h
  obtain ⟨-, count, table, hcount, hbelow, hfound, hnodup, hk, hmet⟩ := h
  obtain ⟨ds, hds, hsum⟩ := exists_domains_of_found hfound
  refine ⟨ds, hds, ?_⟩
  rw [hsum]
  obtain ⟨done, rest, hsplit⟩ := List.append_of_mem (mem_indicesBelow.mpr hbelow)
  cases hfound with
  | @cons _ top _ new htop hnew =>
    have hdone : (t.surveySubzones readOnly id [top] done).result host.files = .ok (top :: new) := by
      have hfirst : ([top].map Prod.fst).Nodup := List.nodup_singleton _
      refine (surveySubzones_eq_ok hfirst).mpr ⟨new, rfl, ?_, hnodup⟩
      rw [indicesBelow_split hsplit]
      exact List.forall₂_map_left_iff.mp hnew
    -- the top-level zone is opened, the zones are counted, and then comes the loop
    obtain ⟨_, host1, hrun1, hfiles1, -, rfl⟩ :=
      (t.realizes_identify [id] host).exists_run htop.identity
    obtain ⟨d, host2, hrun2, hfiles2, hext, hstands⟩ :=
      (t.realizes_openDomain readOnly [id] host1).exists_run (hfiles1 ▸ htop.domain)
    have hopened1 := (t.opens_identify _).everOpened_eq hrun1
    have hopened2 := (t.opens_openDomain readOnly [id]).everOpened_eq hrun2
    rw [hstands.length_descriptors] at hopened2
    have hfiles : host2.files = host.files := hfiles2.trans hfiles1
    have hcount' : ((query fun fs => t.zoneCount fs (raplAddress [id])).onFailure
        (closeDomains [(top.1, d)])).run host2 = ⟨.ok count, host2, []⟩ := by
      rw [run_onFailure_eq_iff, run_query, hfiles, hcount]
    have hloop : ((t.openSubzones id readOnly [(top.1, d)] (done ++ index :: rest)).run
        host2).host.everOpened + DomainTable.cost [top] =
          host2.everOpened + DomainTable.cost (top :: new) + 1 :=
      everOpened_openSubzones (.cons ⟨rfl, hstands⟩ .nil) (hfiles ▸ hdone) (hfiles ▸ hk) hmet
    have hcost : DomainTable.cost [top] = top.2.size + 1 := Nat.add_zero _
    rw [← hsplit] at hloop
    simp only [openPackage, run_bind, hrun1, hrun2, hcount']
    rcases hrun : (t.openSubzones id readOnly [(top.1, d)] (indicesBelow count)).run host2 with
      ⟨_ | _, last, records⟩
    all_goals
      rw [hrun] at hloop
      simp only [run_pure] at hloop ⊢
      omega

end Tree

end PowerZones
