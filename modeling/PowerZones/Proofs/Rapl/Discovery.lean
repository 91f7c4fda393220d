import PowerZones.Proofs.Rapl.Survey
import Mathlib.Data.List.Forall2
import Mathlib.Data.List.Nodup
import Mathlib.Data.List.Perm.Subperm

/-!
# Discovery of packages is exact

Opening a package succeeds just where its top-level zone and every zone below it
that is counted can be opened, is recognised by its name, and no two are of one
domain. The package has then a domain for each of these zones and no other.

* **`Tree.Found`** is what one round of the loop finds of a zone;
* **`Tree.surveySubzones_eq_ok`** is the loop: the domains met so far, together
  with one found for each index, are of different kinds;
* **`Tree.Discovers`** is what it takes to open a package, **`Package.Holds`** what
  it holds then, and **`openPackage_exact`** ties them to `Tree.openPackage`.
-/

namespace PowerZones

open PowerZones.Action

/-- The paths of the zones of a package, as far as they are counted: first its
top-level zone, then those below it. -/
def packagePaths (id count : UInt32) : List (List UInt32) :=
  [id] :: (indicesBelow count).map fun index => [id, index]

/-! ## Rounds and loop -/

namespace Tree

variable {t : Tree} {readOnly : Bool} {id : UInt32} {fs : FileSystem}

/-- What there is to be found of a zone: the domain that its name tells, and what
its power domain stands on. -/
structure Found (t : Tree) (readOnly : Bool) (fs : FileSystem) (zones : List UInt32)
    (d : Domain × DomainBacking) : Prop where
  identity : (t.surveyIdentity zones).result fs = .ok d.1
  domain : (t.surveyDomain readOnly zones).result fs = .ok d.2

/-- A round succeeds where the zone is found, and not of a domain met before. -/
theorem surveySubzone_eq_ok {met : DomainTable} {index : UInt32} {d : Domain × DomainBacking} :
    (t.surveySubzone readOnly id met index).result fs = .ok d ↔
      t.Found readOnly fs [id, index] d ∧ met.lookup d.1 = none := by
  unfold surveySubzone
  rw [Survey.result_bind_eq_ok]
  constructor
  · rintro ⟨domain, hidentity, h⟩
    split at h
    · obtain ⟨_, _, hfail⟩ := Survey.result_bind_eq_ok.mp h
      cases hfail
    · rename_i hnone
      obtain ⟨found, hdomain, hpure⟩ := Survey.result_bind_eq_ok.mp h
      cases hpure
      exact ⟨⟨hidentity, hdomain⟩, Option.not_isSome_iff_eq_none.mp hnone⟩
  · rintro ⟨⟨hidentity, hdomain⟩, hnone⟩
    refine ⟨d.1, hidentity, ?_⟩
    rw [hnone]
    exact Survey.result_bind_eq_ok.mpr ⟨d.2, hdomain, rfl⟩

/-- The loop succeeds where every zone is found and, with those met before, no
two are of one domain. -/
theorem surveySubzones_eq_ok {met table : DomainTable} {indices : List UInt32}
    (hmet : (met.map Prod.fst).Nodup) :
    (t.surveySubzones readOnly id met indices).result fs = .ok table ↔
      ∃ new, table = met ++ new ∧
        List.Forall₂ (fun index d => t.Found readOnly fs [id, index] d) indices new ∧
        (table.map Prod.fst).Nodup := by
  induction indices generalizing met with
  | nil =>
    constructor
    · intro h
      cases h
      exact ⟨[], (List.append_nil _).symm, .nil, hmet⟩
    · rintro ⟨new, rfl, hnew, -⟩
      cases hnew
      rw [List.append_nil]
      rfl
  | cons index rest ih =>
    rw [surveySubzones, Survey.result_bind_eq_ok]
    constructor
    · rintro ⟨d, hround, hrest⟩
      obtain ⟨hfound, hnone⟩ := surveySubzone_eq_ok.mp hround
      -- the duplicate test keeps the domains met distinct
      have hmet' : ((met ++ [d]).map Prod.fst).Nodup := by
        have hfresh : d.1 ∉ met.map Prod.fst := fun hmem => by
          have hsome := Keyed.isSome_lookup_iff.mpr hmem
          rw [hnone] at hsome
          cases hsome
        rw [List.map_append, List.map_singleton]
        exact List.nodup_append.mpr ⟨hmet, List.nodup_singleton _, fun k hk k' hk' heq =>
          hfresh ((List.mem_singleton.mp hk') ▸ heq ▸ hk)⟩
      obtain ⟨new, rfl, hnew, hnodup⟩ := (ih hmet').mp hrest
      exact ⟨d :: new, by simp, .cons hfound hnew, hnodup⟩
    · rintro ⟨new, rfl, hnew, hnodup⟩
      cases hnew with
      | @cons _ d _ new hfound hnew =>
        -- the domains met so far are a part of all, so they are distinct as well
        have hmet' : ((met ++ [d]).map Prod.fst).Nodup := by
          refine hnodup.sublist (List.Sublist.map _ ?_)
          exact (List.sublist_append_left (met ++ [d]) new).trans (by simp)
        refine ⟨d, surveySubzone_eq_ok.mpr ⟨hfound, ?_⟩, (ih hmet').mpr ⟨new, by simp, hnew, hnodup⟩⟩
        rw [← Option.not_isSome_iff_eq_none, Keyed.isSome_lookup_iff]
        rw [List.map_append, List.nodup_append] at hmet'
        exact fun hmem => hmet'.2.2 d.1 hmem d.1 (by simp) rfl

/-- A package is found where all its zones are and no two are of one domain. -/
theorem surveyPackage_eq_ok {table : DomainTable} :
    (t.surveyPackage readOnly id).result fs = .ok table ↔
      ∃ count, t.zoneCount fs (raplAddress [id]) = .ok count ∧
        List.Forall₂ (t.Found readOnly fs) (packagePaths id count) table ∧
        (table.map Prod.fst).Nodup := by
  unfold surveyPackage packagePaths
  simp only [Survey.result_bind_eq_ok, Survey.result_look]
  have hfirst (d : Domain × DomainBacking) : ([d].map Prod.fst).Nodup := List.nodup_singleton _
  constructor
  · rintro ⟨domain, hidentity, found, hdomain, count, hcount, hrest⟩
    obtain ⟨new, rfl, hnew, hnodup⟩ := (surveySubzones_eq_ok (hfirst _)).mp hrest
    exact ⟨count, hcount, .cons ⟨hidentity, hdomain⟩ (List.forall₂_map_left_iff.mpr hnew), hnodup⟩
  · rintro ⟨count, hcount, hfound, hnodup⟩
    cases hfound with
    | @cons _ d _ new htop hnew =>
      refine ⟨d.1, htop.identity, d.2, htop.domain, count, hcount, ?_⟩
      refine (surveySubzones_eq_ok (hfirst _)).mpr ⟨new, rfl, ?_, hnodup⟩
      exact List.forall₂_map_left_iff.mp hnew

/-- A power domain keeps the path it was opened at. -/
theorem zones_of_surveyDomain {zones : List UInt32} {b : DomainBacking}
    (h : (t.surveyDomain readOnly zones).result fs = .ok b) : b.zone.zones = zones := by
  unfold surveyDomain at h
  simp only [Survey.result_bind_eq_ok] at h
  obtain ⟨_, _, _, _, _, _, h⟩ := h
  -- putting the constraints in order does not touch the zone
  unfold DomainBacking.order at h
  simp only [Survey.result_bind_eq_ok, Survey.result_look] at h
  obtain ⟨_, _, _, _, h⟩ := h
  split at h
  · obtain ⟨_, _, hpure⟩ := Survey.result_bind_eq_ok.mp h
    cases hpure
    rfl
  · cases h
    rfl

end Tree

/-! ## What it takes and what it gives -/

/-- On a host, the name of a RAPL zone can be read once and tells a domain. -/
def Tree.Recognizes (t : Tree) (host : Host) (zones : List UInt32) (k : Domain) : Prop :=
  ∃ name, ((t.zoneName (raplAddress zones)).run host).result = .ok name ∧
    Domain.classify name = some k

/-- On a host, a package has so many zones below it, its zones are recognised as
these domains, no two of which are the same, and all of them can be opened. -/
structure Tree.Discovers (t : Tree) (host : Host) (readOnly : Bool) (id count : UInt32)
    (kinds : List Domain) : Prop where
  counted : t.zoneCount host.files (raplAddress [id]) = .ok count
  recognized : List.Forall₂ (t.Recognizes host) (packagePaths id count) kinds
  distinct : kinds.Nodup
  openable : ∀ zones ∈ packagePaths id count,
    ∃ d, ((t.openDomain zones readOnly).run host).result = .ok d

/-- A package holds the zones of these domains, each under its own, and no
others. -/
structure Package.Holds (p : Package) (t : Tree) (host : Host) (id count : UInt32)
    (kinds : List Domain) : Prop where
  sameId : p.id = id
  count_le : count ≤ 4
  domain : ∀ k, (∃ d, p.domain k = .ok d) ↔ k ∈ kinds
  zone : ∀ zones k, (zones ∈ packagePaths id count ∧ t.Recognizes host zones k) ↔
    ∃ z, p.zone k = .ok z ∧ z.zones = zones
  domainSet : ∀ k, p.domainSet.has k = true ↔ k ∈ kinds
  bits : p.domainSet.bits = kinds.foldl (fun bits k => bits ||| DomainSet.bit k) 0

section Found

variable {t : Tree} {readOnly : Bool} {host : Host} {id count : UInt32} {kinds : List Domain}
  {zones : List UInt32} {table : DomainTable} {k k' : Domain}

/-- A zone is recognised as what its survey says. -/
theorem Tree.recognizes_iff :
    t.Recognizes host zones k ↔ (t.surveyIdentity zones).result host.files = .ok k := by
  have hname : ((t.zoneName (raplAddress zones)).run host).result =
      (t.surveyName (raplAddress zones) (.zone .name)).result host.files :=
    (t.realizes_readName _ _).result_eq
  unfold Tree.Recognizes Tree.surveyIdentity
  rw [hname, Survey.result_bind_eq_ok]
  refine exists_congr fun name => and_congr_right fun _ => ?_
  cases Domain.classify name with
  | some k' => simp
  | none =>
    refine ⟨nofun, fun h => ?_⟩
    obtain ⟨_, _, hfail⟩ := Survey.result_bind_eq_ok.mp h
    cases hfail

theorem Tree.Recognizes.unique (h : t.Recognizes host zones k) (h' : t.Recognizes host zones k') :
    k = k' :=
  Except.ok.inj ((Tree.recognizes_iff.mp h).symm.trans (Tree.recognizes_iff.mp h'))

/-- Each member of the first of two lists that go together has a partner. -/
theorem partner_of_mem {α β : Type} {R : α → β → Prop} {as : List α} {bs : List β}
    (h : List.Forall₂ R as bs) {a : α} (ha : a ∈ as) : ∃ b ∈ bs, R a b := by
  induction h with
  | nil => cases ha
  | cons hab _ ih =>
    rcases List.mem_cons.mp ha with rfl | ha
    · exact ⟨_, List.mem_cons_self, hab⟩
    · obtain ⟨b, hb, hab⟩ := ih ha
      exact ⟨b, List.mem_cons_of_mem _ hb, hab⟩

/-- Zones are found, one by one, where all are recognised and can be opened. -/
theorem Tree.foundAll_iff {paths : List (List UInt32)} :
    (∃ table : DomainTable, table.map Prod.fst = kinds ∧
      List.Forall₂ (t.Found readOnly host.files) paths table) ↔
    List.Forall₂ (t.Recognizes host) paths kinds ∧
      ∀ zones ∈ paths, ∃ d, ((t.openDomain zones readOnly).run host).result = .ok d := by
  constructor
  · rintro ⟨table, rfl, htable⟩
    refine ⟨List.forall₂_map_right_iff.mpr (htable.imp fun zones d hfound =>
      Tree.recognizes_iff.mpr hfound.identity), fun zones hmem => ?_⟩
    obtain ⟨d, -, hfound⟩ := partner_of_mem htable hmem
    exact (t.realizes_openDomain readOnly zones host).exists_ok_iff.mpr ⟨d.2, hfound.domain⟩
  · rintro ⟨hrecognized, hopenable⟩
    induction hrecognized with
    | nil => exact ⟨[], rfl, .nil⟩
    | @cons zones k paths kinds hzone _ ih =>
      obtain ⟨table, rfl, htable⟩ := ih fun zones hmem =>
        hopenable zones (List.mem_cons_of_mem _ hmem)
      obtain ⟨found, hfound⟩ := (t.realizes_openDomain readOnly zones host).exists_ok_iff.mp
        (hopenable zones List.mem_cons_self)
      exact ⟨(k, found) :: table, rfl, .cons ⟨Tree.recognizes_iff.mp hzone, hfound⟩ htable⟩

/-- It takes just what a survey of the package finds, under these domains. -/
theorem Tree.discovers_iff : t.Discovers host readOnly id count kinds ↔
    t.zoneCount host.files (raplAddress [id]) = .ok count ∧
      ∃ table : DomainTable, table.map Prod.fst = kinds ∧ kinds.Nodup ∧
        List.Forall₂ (t.Found readOnly host.files) (packagePaths id count) table := by
  constructor
  · rintro ⟨hcount, hrecognized, hdistinct, hopenable⟩
    obtain ⟨table, hkinds, htable⟩ := Tree.foundAll_iff.mpr ⟨hrecognized, hopenable⟩
    exact ⟨hcount, table, hkinds, hdistinct, htable⟩
  · rintro ⟨hcount, table, hkinds, hdistinct, htable⟩
    obtain ⟨hrecognized, hopenable⟩ := Tree.foundAll_iff.mp ⟨table, hkinds, htable⟩
    exact ⟨hcount, hrecognized, hdistinct, hopenable⟩

end Found

/-! ## The package -/

/-- What goes with a common third goes together. -/
private theorem forall₂_join {α β γ : Type} {R : α → β → Prop} {S : γ → β → Prop} {as : List α}
    {bs : List β} {cs : List γ} (h : List.Forall₂ R as bs) (h' : List.Forall₂ S cs bs) :
    List.Forall₂ (fun a c => ∃ b, R a b ∧ S c b) as cs := by
  induction h generalizing cs with
  | nil => cases h'; exact .nil
  | cons hab _ ih =>
    cases h' with
    | cons hcb hrest => exact .cons ⟨_, hab, hcb⟩ (ih hrest)

namespace Package

variable {p : Package} {k : Domain}

theorem exists_domain_iff : (∃ d, p.domain k = .ok d) ↔ k ∈ p.domains.map Prod.fst := by
  rw [← Keyed.isSome_lookup_iff, domain]
  cases p.domains.lookup k <;> simp

theorem has_domainSet_iff : p.domainSet.has k = true ↔ k ∈ p.domains.map Prod.fst :=
  Keyed.isSome_lookup_iff

/-- A package has the zones of its domains, each under its domain. -/
theorem exists_zone_iff (hnodup : (p.domains.map Prod.fst).Nodup) {zones : List UInt32} :
    (∃ z, p.zone k = .ok z ∧ z.zones = zones) ↔
      ∃ d, (k, d) ∈ p.domains ∧ d.zone.zones = zones := by
  have hzone {d : PowerDomain} (h : p.domains.lookup k = some d) : p.zone k = .ok d.zone := by
    rw [zone, domain, h]
    rfl
  constructor
  · rintro ⟨z, hz, rfl⟩
    cases hlook : p.domains.lookup k with
    | none =>
      rw [zone, domain, hlook] at hz
      cases hz
    | some d =>
      obtain rfl := Except.ok.inj ((hzone hlook).symm.trans hz)
      exact ⟨d, Keyed.mem_of_lookup hlook, rfl⟩
  · rintro ⟨d, hmem, rfl⟩
    exact ⟨d.zone, hzone (Keyed.lookup_of_mem hnodup hmem), rfl⟩

/-- The bits of a package are those of its domains. -/
theorem bits_domainSet (hnodup : (p.domains.map Prod.fst).Nodup) : p.domainSet.bits =
    (p.domains.map Prod.fst).foldl (fun bits k => bits ||| DomainSet.bit k) 0 := by
  -- the set goes through its members in their own order, and the bits do not care
  have hperm : p.domainSet.members.Perm (p.domains.map Prod.fst) := by
    refine (List.perm_ext_iff_of_nodup (Vocabulary.nodup.filter _) hnodup).mpr fun k => ?_
    rw [List.mem_filter, has_domainSet_iff]
    exact and_iff_right (Vocabulary.complete k)
  refine hperm.foldl_eq' (fun k _ k' _ bits => ?_) 0
  rw [UInt8.or_assoc, UInt8.or_comm (DomainSet.bit k), ← UInt8.or_assoc]

end Package

/-- There are no more domains than five, and so no package with more than four
zones below it. -/
private theorem count_le_of_nodup {id count : UInt32} {domains : List (Domain × PowerDomain)}
    {R : List UInt32 → Domain × PowerDomain → Prop}
    (h : List.Forall₂ R (packagePaths id count) domains)
    (hnodup : (domains.map Prod.fst).Nodup) : count ≤ 4 := by
  have hpaths : (packagePaths id count).length = count.toNat + 1 := by
    simp [packagePaths, indicesBelow]
  have hlength : (domains.map Prod.fst).length ≤ (Vocabulary.members : List Domain).length :=
    (hnodup.subperm fun k _ => Vocabulary.complete k).length_le
  rw [List.length_map, ← h.length_eq, hpaths] at hlength
  exact UInt32.le_iff_toNat_le.mpr (Nat.le_of_succ_le_succ hlength)

/-- Opening a package succeeds just where everything it takes is there, and then
the package holds just what was discovered. -/
theorem openPackage_exact (t : Tree) (host : Host) (id : UInt32) (readOnly : Bool) :
    ((∃ p, ((t.openPackage id readOnly).run host).result = .ok p) ↔
      ∃ count kinds, t.Discovers host readOnly id count kinds) ∧
    ∀ p count kinds, ((t.openPackage id readOnly).run host).result = .ok p →
      t.Discovers host readOnly id count kinds → p.Holds t host id count kinds := by
  have hrealizes := t.realizes_openPackage readOnly id host
  constructor
  · rw [hrealizes.exists_ok_iff]
    constructor
    · rintro ⟨table, htable⟩
      obtain ⟨count, hcount, hfound, hnodup⟩ := Tree.surveyPackage_eq_ok.mp htable
      exact ⟨count, _, Tree.discovers_iff.mpr ⟨hcount, table, rfl, hnodup, hfound⟩⟩
    · rintro ⟨count, kinds, hdiscovers⟩
      obtain ⟨hcount, table, rfl, hnodup, hfound⟩ := Tree.discovers_iff.mp hdiscovers
      exact ⟨table, Tree.surveyPackage_eq_ok.mpr ⟨count, hcount, hfound, hnodup⟩⟩
  · intro p count kinds hp hdiscovers
    obtain ⟨hcount, table, rfl, hnodup, hfound⟩ := Tree.discovers_iff.mp hdiscovers
    have htable := Tree.surveyPackage_eq_ok.mpr ⟨count, hcount, hfound, hnodup⟩
    obtain ⟨table', htable', hid, hdomains⟩ := hrealizes.of_ok hp
    obtain rfl := Except.ok.inj (htable.symm.trans htable')
    have hkeys := keys_eq_of_standOn hdomains
    rw [← hkeys] at hnodup ⊢
    -- each zone of the package goes with the domain it was recognised as
    have hzones : List.Forall₂ (fun zones d => t.Recognizes host zones d.1 ∧ d.2.zone.zones = zones)
        (packagePaths id count) p.domains := by
      refine (forall₂_join hfound hdomains).imp ?_
      rintro zones d ⟨found, hzone, hkind, hstands⟩
      refine ⟨Tree.recognizes_iff.mpr (hkind ▸ hzone.identity), ?_⟩
      exact hstands.zone.zones.trans (Tree.zones_of_surveyDomain hzone.domain)
    refine ⟨hid, count_le_of_nodup hzones hnodup, fun k => Package.exists_domain_iff,
      fun zones k => ?_, fun k => Package.has_domainSet_iff, Package.bits_domainSet hnodup⟩
    rw [Package.exists_zone_iff hnodup]
    constructor
    · rintro ⟨hmem, hrecognized⟩
      obtain ⟨⟨k', d⟩, hd, hrecognized', hpath⟩ := partner_of_mem hzones hmem
      obtain rfl := hrecognized.unique hrecognized'
      exact ⟨d, hd, hpath⟩
    · rintro ⟨d, hd, rfl⟩
      obtain ⟨zones, hmem, hrecognized, hpath⟩ := partner_of_mem hzones.flip hd
      exact hpath ▸ ⟨hmem, hrecognized⟩

end PowerZones
