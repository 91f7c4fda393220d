import PowerZones.Proofs.Rapl.Discovery
import PowerZones.Proofs.Tree.Probing

/-!
# Checks on the way to a package

Opening a package makes one check after the other: of each zone in turn, whether its
name can be read, whether it tells a domain, whether that was met before, and whether the
zone and its two constraints can be opened; and, after the top-level zone, whether the
zones below it can be counted. Each check can be made for itself, on the host as it is
before anything was opened.

* **`Check`** lists the kinds of checks, **`Check.problem?`** is what one comes to, and
  **`Tree.packageChecks`** puts them in order;
* **`Tree.failureOf_surveyPackage`**: opening fails with the first problem;
* **`Tree.SameZone`**: a zone looks the same on two hosts. What is beyond the zones that
  look the same has no influence, as **`Tree.SameUpTo.findSome?_packageChecks`** and
  **`Tree.SameUpTo.findSome?_packageChecks_eq`** say.
-/

namespace PowerZones

open PowerZones.Action

/-! ## Checks -/

/-- What is checked on the way to a package. -/
inductive Check where
  /-- Whether the name of a zone can be read. -/
  | named (zones : List UInt32)
  /-- Whether the name of a zone tells a domain. -/
  | recognized (zones : List UInt32)
  /-- Whether the domain of a zone below a package was not met before. -/
  | fresh (id index : UInt32)
  /-- Whether a zone can be opened. -/
  | zone (zones : List UInt32)
  /-- Whether the constraint of a zone for a term can be opened. -/
  | constraint (zones : List UInt32) (term : Term)
  /-- Whether the zones below a package can be counted. -/
  | counted (id : UInt32)

/-- The domain that a zone is recognised as, if its name can be read and tells one. -/
def Tree.kind? (t : Tree) (host : Host) (zones : List UInt32) : Option Domain :=
  match ((t.zoneName (raplAddress zones)).run host).result with
  | .ok name => Domain.classify name
  | .error _ => none

/-- The problem of a zone whose name can be read but tells no domain. -/
def Tree.unrecognized? (t : Tree) (host : Host) (zones : List UInt32) : Option Failure :=
  match ((t.zoneName (raplAddress zones)).run host).result with
  | .ok name => if (Domain.classify name).isSome then none else some (.unrecognizedDomain name)
  | .error _ => none

/-- The problem of a zone below a package that has the domain of one before it. -/
def Tree.duplicate? (t : Tree) (host : Host) (id index : UInt32) : Option Failure :=
  (t.kind? host [id, index]).bind fun k =>
    if k ∈ (packagePaths id index).filterMap (t.kind? host) then some (.duplicateDomain k id index)
    else none

/-- What a check comes to on a host, made for itself: a problem or none. -/
def Check.problem? (t : Tree) (readOnly : Bool) (host : Host) : Check → Option Failure
  | .named zones => failureOf ((t.zoneName (raplAddress zones)).run host).result
  | .recognized zones => t.unrecognized? host zones
  | .fresh id index => t.duplicate? host id index
  | .zone zones => failureOf ((t.openZone (raplAddress zones) readOnly).run host).result
  | .constraint zones term =>
    failureOf ((t.openConstraint (raplAddress zones) term.number readOnly).run host).result
  | .counted id => failureOf (t.zoneCount host.files (raplAddress [id]))

/-- The checks of the name of a zone. -/
def identityChecks (zones : List UInt32) : List Check :=
  [.named zones, .recognized zones]

/-- The checks of what is opened of a zone. -/
def openingChecks (zones : List UInt32) : List Check :=
  [.zone zones, .constraint zones .long, .constraint zones .short]

/-- The checks of the top-level zone of a package. -/
def topChecks (id : UInt32) : List Check :=
  identityChecks [id] ++ openingChecks [id]

/-- The checks of a zone below a package. -/
def subzoneChecks (id index : UInt32) : List Check :=
  identityChecks [id, index] ++ .fresh id index :: openingChecks [id, index]

/-- The checks of a package with so many zones below it. -/
def checksUpTo (id count : UInt32) : List Check :=
  topChecks id ++ .counted id :: (indicesBelow count).flatMap (subzoneChecks id)

/-- The checks of a package, in order. If the zones below it cannot be counted, that is
the last one. -/
def Tree.packageChecks (t : Tree) (fs : FileSystem) (id : UInt32) : List Check :=
  match t.zoneCount fs (raplAddress [id]) with
  | .ok count => checksUpTo id count
  | .error _ => topChecks id ++ [.counted id]

/-- The first problem in a list of checks is that of the first, or else the first in the
rest. -/
theorem findSome?_cons_or {α β : Type} (f : α → Option β) (a : α) (l : List α) :
    (a :: l).findSome? f = (f a).or (l.findSome? f) := by
  rw [List.findSome?_cons]
  cases f a <;> rfl

namespace Tree

variable {t : Tree} {readOnly : Bool} {host : Host} {id : UInt32} {zones : List UInt32}

theorem kind?_eq_some_iff {k : Domain} :
    t.kind? host zones = some k ↔ (t.surveyIdentity zones).result host.files = .ok k := by
  rw [← recognizes_iff]
  unfold kind? Recognizes
  cases ((t.zoneName (raplAddress zones)).run host).result <;> simp

/-! ## The first problem -/

theorem failureOf_surveyIdentity :
    failureOf ((t.surveyIdentity zones).result host.files) =
      (identityChecks zones).findSome? (Check.problem? t readOnly host) := by
  have hname : ((t.zoneName (raplAddress zones)).run host).result =
      (t.surveyName (raplAddress zones) (.zone .name)).result host.files :=
    (t.realizes_readName _ _).result_eq
  simp only [identityChecks, findSome?_cons_or, List.findSome?_nil, Option.or_none,
    Check.problem?]
  unfold unrecognized?
  rw [hname]
  refine Survey.failureOf_bind fun name hok => ?_
  rw [hok]
  dsimp only
  cases Domain.classify name with
  | some k => rfl
  | none => rfl

/-- Putting the constraints in order never fails. -/
theorem failureOf_order (logger : Logger) (a : Address) (b : DomainBacking) (fs : FileSystem) :
    failureOf ((b.order logger a).result fs) = none := by
  refine Survey.failureOf_bind fun long _ => Survey.failureOf_bind fun short _ => ?_
  split
  · exact Survey.failureOf_bind fun _ _ => rfl
  · rfl

theorem failureOf_surveyDomain :
    failureOf ((t.surveyDomain readOnly zones).result host.files) =
      (openingChecks zones).findSome? (Check.problem? t readOnly host) := by
  have hconstraint (term : Term) := (t.realizes_openConstraint (raplAddress zones) readOnly host
    term.number).failureOf_eq
  simp only [openingChecks, findSome?_cons_or, List.findSome?_nil,
    Check.problem?, (t.realizes_openZone _ _ host).failureOf_eq, hconstraint]
  refine Survey.failureOf_bind fun zone _ => Survey.failureOf_bind fun longTerm _ => ?_
  exact Survey.failureOf_bind fun shortTerm _ => failureOf_order _ _ _ _

/-- The indices before one of those below a count are those below that one. -/
theorem indicesBelow_split {count index : UInt32} {done rest : List UInt32}
    (h : indicesBelow count = done ++ index :: rest) : done = indicesBelow index := by
  have hlength : done.length < count.toNat := by
    have := congrArg List.length h
    simp only [indicesBelow, List.length_map, List.length_range, List.length_append,
      List.length_cons] at this
    omega
  have hdone : done = (List.range done.length).map UInt32.ofNat := by
    have htake := congrArg (List.take done.length) h
    rw [List.take_left, indicesBelow, ← List.map_take, List.take_range,
      Nat.min_eq_left (Nat.le_of_lt hlength)] at htake
    exact htake.symm
  have hindex : index.toNat = done.length := by
    have hget := congrArg (fun l => l[done.length]?) h
    simp only [indicesBelow, List.getElem?_map, List.getElem?_range hlength, Option.map_some,
      List.getElem?_append_right (Nat.le_refl _), Nat.sub_self, List.getElem?_cons_zero,
      Option.some.injEq] at hget
    rw [← hget]
    exact UInt32.toNat_ofNat_of_lt (Nat.lt_trans hlength count.toNat_lt)
  rw [hdone, indicesBelow, hindex]

theorem failureOf_surveySubzone {index : UInt32} {met : DomainTable}
    (hmet : met.map Prod.fst = (packagePaths id index).filterMap (t.kind? host)) :
    failureOf ((t.surveySubzone readOnly id met index).result host.files) =
      (subzoneChecks id index).findSome? (Check.problem? t readOnly host) := by
  rw [subzoneChecks, List.findSome?_append, ← failureOf_surveyIdentity, findSome?_cons_or]
  refine Survey.failureOf_bind fun k hk => ?_
  have hkind := kind?_eq_some_iff.mpr hk
  have hproblem : Check.problem? t readOnly host (.fresh id index) =
      if (met.lookup k).isSome then some (.duplicateDomain k id index) else none := by
    rw [Check.problem?, duplicate?, hkind, ← hmet, Option.bind_some]
    simp only [Keyed.isSome_lookup_iff]
  rw [hproblem]
  split
  · exact Survey.failureOf_bind fun _ _ => rfl
  · rw [Option.none_or, ← failureOf_surveyDomain]
    exact Survey.failureOf_returns

/-- The loop fails with the first problem of the zones that are left, given the domains
of those before. -/
theorem failureOf_surveySubzones {count : UInt32} (done : List UInt32) {indices : List UInt32}
    {met : DomainTable}
    (hsplit : indicesBelow count = done ++ indices)
    (hmet : met.map Prod.fst = ([id] :: done.map fun index => [id, index]).filterMap (t.kind? host)) :
    failureOf ((t.surveySubzones readOnly id met indices).result host.files) =
      (indices.flatMap (subzoneChecks id)).findSome? (Check.problem? t readOnly host) := by
  induction indices generalizing done met with
  | nil => rfl
  | cons index rest ih =>
    have hbefore : met.map Prod.fst = (packagePaths id index).filterMap (t.kind? host) := by
      rw [hmet, packagePaths, ← indicesBelow_split hsplit]
    rw [List.flatMap_cons, List.findSome?_append, ← failureOf_surveySubzone hbefore]
    refine Survey.failureOf_bind fun d hd => ih (done ++ [index]) ?_ ?_
    · rw [hsplit, List.append_assoc, List.singleton_append]
    · -- the zone was recognised as what was found for it
      have hkind := kind?_eq_some_iff.mpr (surveySubzone_eq_ok.mp hd).1.identity
      rw [List.map_append, List.map_append, hmet, ← List.cons_append, List.filterMap_append]
      simp [hkind]

/-- A package cannot be opened just where there is a problem, and fails with the first. -/
theorem failureOf_surveyPackage :
    failureOf ((t.surveyPackage readOnly id).result host.files) =
      (t.packageChecks host.files id).findSome? (Check.problem? t readOnly host) := by
  have htop (later : List Check) :
      (topChecks id ++ later).findSome? (Check.problem? t readOnly host) =
        (failureOf ((t.surveyIdentity [id]).result host.files)).or
          ((failureOf ((t.surveyDomain readOnly [id]).result host.files)).or
            (later.findSome? (Check.problem? t readOnly host))) := by
    rw [failureOf_surveyIdentity, failureOf_surveyDomain, topChecks, List.append_assoc,
      List.findSome?_append, List.findSome?_append]
  unfold packageChecks
  cases hcount : t.zoneCount host.files (raplAddress [id]) with
  | error e =>
    rw [htop]
    refine Survey.failureOf_bind fun k hk => Survey.failureOf_bind fun d _ => ?_
    simp [Check.problem?, hcount, failureOf, Except.bind]
  | ok count =>
    dsimp only
    rw [checksUpTo, htop]
    refine Survey.failureOf_bind fun k hk => Survey.failureOf_bind fun d _ => ?_
    rw [findSome?_cons_or, Check.problem?]
    refine Survey.failureOf_bind fun count' hcount' => ?_
    obtain rfl : count = count' := Except.ok.inj (hcount.symm.trans hcount')
    exact failureOf_surveySubzones [] rfl (by simp [kind?_eq_some_iff.mpr hk])

end Tree

/-! ## Zones that look the same -/

theorem mem_indicesBelow {count index : UInt32} : index ∈ indicesBelow count ↔ index < count := by
  unfold indicesBelow
  rw [List.mem_map]
  constructor
  · rintro ⟨j, hj, rfl⟩
    rw [List.mem_range] at hj
    have htoNat : (UInt32.ofNat j).toNat = j :=
      UInt32.toNat_ofNat_of_lt (Nat.lt_trans hj count.toNat_lt)
    rwa [UInt32.lt_iff_toNat_lt, htoNat]
  · intro hindex
    exact ⟨index.toNat, List.mem_range.mpr (UInt32.lt_iff_toNat_lt.mp hindex), UInt32.ofNat_toNat⟩

theorem packagePaths_subset {id index count : UInt32} (h : index ≤ count) :
    packagePaths id index ⊆ packagePaths id count := by
  refine List.cons_subset_cons _ (List.map_subset _ fun j hj => ?_)
  rw [mem_indicesBelow] at hj ⊢
  exact UInt32.lt_of_lt_of_le hj h

theorem mem_packagePaths {id index count : UInt32} (h : index < count) :
    [id, index] ∈ packagePaths id count :=
  List.mem_cons_of_mem _ (List.mem_map.mpr ⟨index, mem_indicesBelow.mpr h, rfl⟩)

/-- A zone looks the same on two hosts: it exists on both or on neither, reading its name
comes to the same, and so does opening it and its constraints, as far as failures go. -/
structure Tree.SameZone (t : Tree) (readOnly : Bool) (host host' : Host) (zones : List UInt32) :
    Prop where
  existing : t.zoneExists host'.files (raplAddress zones) =
    t.zoneExists host.files (raplAddress zones)
  name : ((t.zoneName (raplAddress zones)).run host').result =
    ((t.zoneName (raplAddress zones)).run host).result
  zone : failureOf ((t.openZone (raplAddress zones) readOnly).run host').result =
    failureOf ((t.openZone (raplAddress zones) readOnly).run host).result
  constraint : ∀ term : Term,
    failureOf ((t.openConstraint (raplAddress zones) term.number readOnly).run host').result =
      failureOf ((t.openConstraint (raplAddress zones) term.number readOnly).run host).result

/-- The top-level zone of a package and so many zones below it look the same. -/
def Tree.SameUpTo (t : Tree) (readOnly : Bool) (host host' : Host) (id count : UInt32) : Prop :=
  ∀ zones ∈ packagePaths id count, t.SameZone readOnly host host' zones

namespace Tree

variable {t : Tree} {readOnly : Bool} {host host' : Host} {id : UInt32} {zones : List UInt32}

namespace SameZone

theorem kind?_eq (h : t.SameZone readOnly host host' zones) :
    t.kind? host' zones = t.kind? host zones := by
  unfold kind?
  rw [h.name]

theorem identityChecks_eq (h : t.SameZone readOnly host host' zones) :
    ∀ c ∈ identityChecks zones, c.problem? t readOnly host' = c.problem? t readOnly host := by
  simp only [identityChecks, List.forall_mem_cons, List.not_mem_nil, false_implies, implies_true,
    and_true]
  constructor
  · simp only [Check.problem?, h.name]
  · simp only [Check.problem?]
    unfold unrecognized?
    rw [h.name]

theorem openingChecks_eq (h : t.SameZone readOnly host host' zones) :
    ∀ c ∈ openingChecks zones, c.problem? t readOnly host' = c.problem? t readOnly host := by
  simp only [openingChecks, List.forall_mem_cons, List.not_mem_nil, false_implies, implies_true,
    and_true]
  exact ⟨h.zone, h.constraint .long, h.constraint .short⟩

theorem topChecks_eq (h : t.SameZone readOnly host host' [id]) :
    ∀ c ∈ topChecks id, c.problem? t readOnly host' = c.problem? t readOnly host :=
  List.forall_mem_append.mpr ⟨h.identityChecks_eq, h.openingChecks_eq⟩

end SameZone

namespace SameUpTo

variable {index count : UInt32}

/-- The checks of a zone come to the same where it and all zones before it look the
same. -/
theorem subzoneChecks_eq (h : t.SameUpTo readOnly host host' id count) (hindex : index < count) :
    ∀ c ∈ subzoneChecks id index, c.problem? t readOnly host' = c.problem? t readOnly host := by
  have hzone := h _ (mem_packagePaths hindex)
  refine List.forall_mem_append.mpr ⟨hzone.identityChecks_eq, List.forall_mem_cons.mpr
    ⟨?_, hzone.openingChecks_eq⟩⟩
  have hbefore : (packagePaths id index).filterMap (t.kind? host') =
      (packagePaths id index).filterMap (t.kind? host) :=
    List.filterMap_congr fun zones hzones =>
      (h _ (packagePaths_subset (UInt32.le_of_lt hindex) hzones)).kind?_eq
  rw [Check.problem?, Check.problem?, duplicate?, duplicate?, hzone.kind?_eq, hbefore]

end SameUpTo

/-- Where all checks come to the same, so does the first problem. -/
theorem findSome?_congr {checks : List Check}
    (h : ∀ c ∈ checks, c.problem? t readOnly host' = c.problem? t readOnly host) :
    checks.findSome? (Check.problem? t readOnly host') =
      checks.findSome? (Check.problem? t readOnly host) := by
  induction checks with
  | nil => rfl
  | cons c rest ih =>
    rw [findSome?_cons_or, findSome?_cons_or, h c List.mem_cons_self,
      ih fun c hc => h c (List.mem_cons_of_mem _ hc)]

/-- The checks up to a count begin with those up to a smaller one. -/
theorem exists_checksUpTo_eq (id : UInt32) {n count : UInt32} (h : n ≤ count) :
    ∃ more, checksUpTo id count = checksUpTo id n ++ more := by
  obtain ⟨k, hk⟩ := Nat.exists_eq_add_of_le (UInt32.le_iff_toNat_le.mp h)
  have hindices : ∃ rest, indicesBelow count = indicesBelow n ++ rest := by
    rw [indicesBelow, hk, List.range_add, List.map_append]
    exact ⟨_, rfl⟩
  obtain ⟨rest, hrest⟩ := hindices
  refine ⟨rest.flatMap (subzoneChecks id), ?_⟩
  rw [checksUpTo, checksUpTo, hrest, List.flatMap_append, List.append_assoc, List.cons_append]

theorem exists_packageChecks_eq (t : Tree) (fs : FileSystem) (id : UInt32) :
    ∃ later, t.packageChecks fs id = topChecks id ++ later := by
  unfold packageChecks
  cases t.zoneCount fs (raplAddress [id]) with
  | ok count => exact ⟨_, rfl⟩
  | error e => exact ⟨_, rfl⟩

/-- A problem of the top-level zone is the first one wherever that zone looks the same. -/
theorem SameZone.findSome?_packageChecks {e : Failure}
    (hzone : t.SameZone readOnly host host' [id])
    (h : (topChecks id).findSome? (Check.problem? t readOnly host) = some e) :
    (t.packageChecks host'.files id).findSome? (Check.problem? t readOnly host') = some e := by
  obtain ⟨later, hlater⟩ := t.exists_packageChecks_eq host'.files id
  rw [hlater, List.findSome?_append, findSome?_congr hzone.topChecks_eq, h, Option.some_or]

theorem length_zones_lt_maxDepth (id : UInt32) : (raplAddress [id]).zones.length < maxDepth := by
  simp [raplAddress, maxDepth]

namespace SameUpTo

variable {n : UInt32}

/-- All checks up to a count come to the same, if counting does. -/
theorem checksUpTo_eq (hsame : t.SameUpTo readOnly host host' id n)
    (hcount : failureOf (t.zoneCount host'.files (raplAddress [id])) =
      failureOf (t.zoneCount host.files (raplAddress [id]))) :
    ∀ c ∈ checksUpTo id n, c.problem? t readOnly host' = c.problem? t readOnly host := by
  refine List.forall_mem_append.mpr ⟨(hsame _ List.mem_cons_self).topChecks_eq,
    List.forall_mem_cons.mpr ⟨hcount, fun c hc => ?_⟩⟩
  obtain ⟨index, hindex, hc⟩ := List.mem_flatMap.mp hc
  exact hsame.subzoneChecks_eq (mem_indicesBelow.mp hindex) c hc

/-- As long as the zones can be counted, a problem of the top-level zone or of one of the
first zones below it is the first one wherever these look the same. -/
theorem findSome?_packageChecks {count count' : UInt32} {e : Failure}
    (hsame : t.SameUpTo readOnly host host' id n)
    (hcount : t.Numbered host.files (raplAddress [id]) count)
    (hcount' : t.Numbered host'.files (raplAddress [id]) count') (hn : n ≤ count)
    (h : (checksUpTo id n).findSome? (Check.problem? t readOnly host) = some e) :
    (t.packageChecks host'.files id).findSome? (Check.problem? t readOnly host') = some e := by
  -- a zone that exists on one host and looks the same on the other exists there
  have hn' : n ≤ count' := by
    by_contra hlt
    have hlt : count' < n := UInt32.not_le.mp hlt
    have hexists := (hsame _ (mem_packagePaths hlt)).existing
    have hgap : t.zoneExists host'.files (raplAddress [id, count']) = .ok false := hcount'.gap
    have hbelow : t.zoneExists host.files (raplAddress [id, count']) = .ok true :=
      hcount.below count' (UInt32.lt_of_lt_of_le hlt hn)
    rw [hgap, hbelow] at hexists
    cases hexists
  have hok := hcount.zoneCount_eq (length_zones_lt_maxDepth id)
  have hok' := hcount'.zoneCount_eq (length_zones_lt_maxDepth id)
  obtain ⟨more, hmore⟩ := exists_checksUpTo_eq id hn'
  rw [packageChecks, hok']
  dsimp only
  rw [hmore, List.findSome?_append, findSome?_congr (hsame.checksUpTo_eq (by rw [hok, hok']; rfl)),
    h, Option.some_or]

/-- What is beyond a gap in the numbers has no influence on what the checks come to. -/
theorem findSome?_packageChecks_eq (hsame : t.SameUpTo readOnly host host' id n)
    (hgap : t.zoneExists host.files (raplAddress [id, n]) ≠ .ok true)
    (hgap' : t.zoneExists host'.files (raplAddress [id, n]) ≠ .ok true) :
    (t.packageChecks host'.files id).findSome? (Check.problem? t readOnly host') =
      (t.packageChecks host.files id).findSome? (Check.problem? t readOnly host) := by
  obtain ⟨m, hm, hbelow, hfirst⟩ :=
    exists_first_gap (fun index => t.zoneExists host.files (raplAddress [id, index])) hgap
  have hfirst' : t.zoneExists host'.files (raplAddress [id, m]) =
      t.zoneExists host.files (raplAddress [id, m]) := by
    by_cases heq : m = n
    · subst heq
      exact zoneExists_eq_of_ne hgap hgap'
    · exact (hsame _ (mem_packagePaths (UInt32.lt_of_le_of_ne hm heq))).existing
  have hsame : t.SameUpTo readOnly host host' id m :=
    fun zones hzones => hsame zones (packagePaths_subset hm hzones)
  have hbelow' : ∀ j < m, t.zoneExists host'.files (raplAddress [id, j]) = .ok true := by
    intro j hj
    rw [(hsame _ (mem_packagePaths hj)).existing]
    exact hbelow j hj
  -- so the zones are counted alike, and the checks are the same on both hosts
  have hok : t.zoneCount host.files (raplAddress [id]) =
      (t.zoneExists host.files (raplAddress [id, m])).map fun _ => m :=
    zoneCount_of_gap (length_zones_lt_maxDepth id) hbelow hfirst
  have hok' : t.zoneCount host'.files (raplAddress [id]) =
      (t.zoneExists host'.files (raplAddress [id, m])).map fun _ => m :=
    zoneCount_of_gap (length_zones_lt_maxDepth id) hbelow' (hfirst' ▸ hfirst)
  rw [hfirst', ← hok] at hok'
  have hall := hsame.checksUpTo_eq (congrArg failureOf hok')
  unfold packageChecks
  rw [hok', hok]
  refine findSome?_congr fun c hc => hall c ?_
  cases hexists : t.zoneExists host.files (raplAddress [id, m]) with
  | ok b =>
    rw [hexists] at hc
    exact hc
  | error e =>
    rw [hexists] at hc
    have hc : c ∈ topChecks id ++ [.counted id] := hc
    rcases List.mem_append.mp hc with htop | hcounted
    · exact List.mem_append_left _ htop
    · obtain rfl := List.mem_singleton.mp hcounted
      exact List.mem_append_right _ List.mem_cons_self

end SameUpTo

end Tree

end PowerZones
