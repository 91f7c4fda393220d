import PowerZones.Proofs.Tree.Injectivity
import PowerZones.Proofs.Tree.Listing
import PowerZones.Proofs.Tree.Probing
import PowerZones.Proofs.Tree.Refusal

/-!
# Counts are exact

Zones and constraints are counted by a loop that nothing bounds but the file system
itself: it goes on as long as the next index is there, with a counter of 32 bits that
must not overflow. A run of the loop is a derivation, so that there is one just if the
loop ends.

* **`Probes`** is the loop, and **`probes_zero_iff`** what its runs come to: the first
  index that is not there decides;
* **`Tree.entry_of_constraintExists`**: each constraint that exists has an entry of its own
  in the directory of its zone;
* **`CountsExactly`** is what a count is to be, and **`CountsExactly.of_entries`** reduces
  it to two facts about a single look;
* **`probing_counts_exactly`** says that zones and constraints are counted so.
-/

namespace PowerZones

/-! ## The loop -/

/-- The loop that counts, from an index on, and what it comes to. It goes on only where
the counter has room for the next index. -/
inductive Probes (present : UInt32 → Except Failure Bool) : UInt32 → Except Failure UInt32 → Prop
  | absent {i : UInt32} (h : present i = .ok false) : Probes present i (.ok i)
  | failed {i : UInt32} {e : Failure} (h : present i = .error e) : Probes present i (.error e)
  | next {i : UInt32} {r : Except Failure UInt32} (h : present i = .ok true)
    (hroom : i.toNat + 1 < UInt32.size) (rest : Probes present (i + 1) r) : Probes present i r

section Loop

variable {present : UInt32 → Except Failure Bool} {i n : UInt32} {r : Except Failure UInt32}

/-- A run ends at the first index that is not there. -/
theorem Probes.exists_gap (h : Probes present i r) :
    ∃ n, (∀ j, i ≤ j → j < n → present j = .ok true) ∧ present n ≠ .ok true ∧
      r = (present n).map fun _ => n := by
  induction h with
  | absent h =>
    exact ⟨_, fun j hj hlt => absurd hj (UInt32.not_le.mpr hlt), by simp [h], by simp [h, Except.map]⟩
  | failed h =>
    exact ⟨_, fun j hj hlt => absurd hj (UInt32.not_le.mpr hlt), by simp [h], by simp [h, Except.map]⟩
  | @next i r h hroom _ ih =>
    obtain ⟨n, hbelow, hgap, hr⟩ := ih
    refine ⟨n, fun j hj hlt => ?_, hgap, hr⟩
    by_cases heq : j = i
    · exact heq ▸ h
    · refine hbelow j ?_ hlt
      have hlt' := UInt32.lt_iff_toNat_lt.mp (UInt32.lt_of_le_of_ne hj (Ne.symm heq))
      rw [UInt32.le_iff_toNat_le, toNat_next hroom]
      exact hlt'

/-- From every index up to the first that is not there, there is a run that ends there. -/
theorem Probes.of_gap (hgap : present n ≠ .ok true) (hle : i ≤ n)
    (hbelow : ∀ j, i ≤ j → j < n → present j = .ok true) :
    Probes present i ((present n).map fun _ => n) := by
  induction hk : n.toNat - i.toNat generalizing i with
  | zero =>
    obtain rfl : i = n := UInt32.toNat_inj.mp
      (Nat.le_antisymm (UInt32.le_iff_toNat_le.mp hle) (Nat.sub_eq_zero_iff_le.mp hk))
    cases hpresent : present i with
    | error e => exact .failed hpresent
    | ok b =>
      cases b with
      | true => exact absurd hpresent hgap
      | false => exact .absent hpresent
  | succ k ih =>
    have hlt : i.toNat < n.toNat := by omega
    have hroom : i.toNat + 1 < UInt32.size := Nat.lt_of_le_of_lt hlt n.toNat_lt
    have hnext := toNat_next hroom
    refine .next (hbelow i (UInt32.le_refl i) (UInt32.lt_iff_toNat_lt.mpr hlt)) hroom
      (ih ?_ (fun j hj => hbelow j ?_) (by omega))
    · exact UInt32.le_iff_toNat_le.mpr (hnext ▸ hlt)
    · have hj := UInt32.le_iff_toNat_le.mp hj
      exact UInt32.le_iff_toNat_le.mpr (by omega)

/-- What the loop comes to: the first index that is not there decides. -/
theorem probes_zero_iff : Probes present 0 r ↔
    ∃ n, (∀ j < n, present j = .ok true) ∧ present n ≠ .ok true ∧
      r = (present n).map fun _ => n := by
  constructor
  · intro h
    obtain ⟨n, hbelow, hgap, hr⟩ := h.exists_gap
    exact ⟨n, fun j => hbelow j UInt32.zero_le, hgap, hr⟩
  · rintro ⟨n, hbelow, hgap, rfl⟩
    exact .of_gap hgap UInt32.zero_le fun j _ => hbelow j

/-- The loop ends just if some index is not there. -/
theorem exists_probes_iff : (∃ r, Probes present 0 r) ↔ ∃ n, present n ≠ .ok true := by
  constructor
  · rintro ⟨r, h⟩
    obtain ⟨n, -, hgap, -⟩ := probes_zero_iff.mp h
    exact ⟨n, hgap⟩
  · rintro ⟨n, h⟩
    obtain ⟨m, -, hbelow, hgap⟩ := exists_first_gap present h
    exact ⟨_, probes_zero_iff.mpr ⟨m, hbelow, hgap, rfl⟩⟩

theorem probes_ok_iff : Probes present 0 (.ok n) ↔
    (∀ j < n, present j = .ok true) ∧ present n = .ok false := by
  rw [probes_zero_iff]
  constructor
  · rintro ⟨m, hbelow, hgap, hr⟩
    cases hpresent : present m with
    | error e => rw [hpresent] at hr; cases hr
    | ok b =>
      rw [hpresent] at hr
      obtain rfl := Except.ok.inj hr
      cases b with
      | true => exact absurd hpresent hgap
      | false => exact ⟨hbelow, hpresent⟩
  · rintro ⟨hbelow, habsent⟩
    exact ⟨n, hbelow, by simp [habsent], by rw [habsent]; rfl⟩

theorem probes_error_iff {e : Failure} : Probes present 0 (.error e) ↔
    ∃ n, (∀ j < n, present j = .ok true) ∧ present n = .error e := by
  rw [probes_zero_iff]
  constructor
  · rintro ⟨n, hbelow, -, hr⟩
    cases hpresent : present n with
    | error e' =>
      rw [hpresent] at hr
      obtain rfl := Except.error.inj hr
      exact ⟨n, hbelow, hpresent⟩
    | ok b => rw [hpresent] at hr; cases hr
  · rintro ⟨n, hbelow, hfailed⟩
    exact ⟨n, hbelow, by simp [hfailed], by rw [hfailed]; rfl⟩

end Loop

/-! ## What a count is to be -/

/-- The loop ends, unless there are as many entries as the counter has values, and a count
is what it comes to: the first index that is not there, or a failure at the first whose
path is too long. No more indices are there in a row than there are entries. -/
structure CountsExactly (path : UInt32 → String) (present : UInt32 → Except Failure Bool)
    (entries : Nat) (count : Except Failure UInt32) : Prop where
  ends_iff : (∃ r, Probes present 0 r) ↔ ∃ n, present n ≠ .ok true
  ends : entries < UInt32.size → ∃ r, Probes present 0 r
  result_iff : (∃ r, Probes present 0 r) → ∀ r, count = r ↔ Probes present 0 r
  ok_iff : ∀ n, Probes present 0 (.ok n) ↔
    (∀ j < n, present j = .ok true) ∧ present n = .ok false
  error_iff : ∀ e, Probes present 0 (.error e) ↔
    ∃ n, (∀ j < n, present j = .ok true) ∧ maxPathSize ≤ (path n).utf8ByteSize ∧
      present n = .error e ∧ ∃ size, e = .pathTooLong size ∧ maxPathSize ≤ size
  le_entries : ∀ n, (∀ j < n, present j = .ok true) → n.toNat ≤ entries

/-- Probing counts exactly, with one look more than there are entries, where a look fails
only for the length of its path and all indices that are there have an entry. -/
theorem CountsExactly.of_entries {path : UInt32 → String} {present : UInt32 → Except Failure Bool}
    {entries : Nat}
    (herror : ∀ n e, present n = .error e →
      (∃ size, e = .pathTooLong size ∧ maxPathSize ≤ size) ∧ maxPathSize ≤ (path n).utf8ByteSize)
    (hentries : ∀ count : Nat, count ≤ UInt32.size →
      (∀ i : UInt32, i.toNat < count → present i = .ok true) → count ≤ entries) :
    CountsExactly path present entries (probe present (entries + 1) 0) := by
  have hle (n : UInt32) (hbelow : ∀ j < n, present j = .ok true) : n.toNat ≤ entries := by
    apply hentries n.toNat (Nat.le_of_lt n.toNat_lt)
    intro i hi
    exact hbelow i (UInt32.lt_iff_toNat_lt.mpr hi)
  have hresult {r : Except Failure UInt32} (hr : Probes present 0 r) :
      probe present (entries + 1) 0 = r := by
    obtain ⟨n, hbelow, hgap, rfl⟩ := probes_zero_iff.mp hr
    apply probe_of_gap hbelow hgap _ 0 UInt32.zero_le
    simpa using Nat.lt_succ_of_le (hle n hbelow)
  constructor
  case ends_iff => exact exists_probes_iff
  case ends =>
    intro hfew
    refine exists_probes_iff.mpr (by_contra fun hnone => ?_)
    push Not at hnone
    -- all indices would be there, and each has an entry
    have hall := hentries UInt32.size (Nat.le_refl _) fun i _ => hnone i
    omega
  case result_iff =>
    intro ⟨r', hr'⟩ r
    constructor
    · intro h
      obtain rfl := (hresult hr').symm.trans h
      exact hr'
    · exact hresult
  case ok_iff => exact fun _ => probes_ok_iff
  case error_iff =>
    intro e
    rw [probes_error_iff]
    refine exists_congr fun n => and_congr_right fun _ => ?_
    constructor
    · intro h
      obtain ⟨hsize, hlong⟩ := herror n e h
      exact ⟨hlong, h, hsize⟩
    · exact fun h => h.2.1
  case le_entries => exact hle

/-! ## Looks -/

namespace Tree

variable {t : Tree} {fs : FileSystem} {a : Address} {number : UInt32}

/-- A constraint that exists has an entry in the directory of its zone. -/
theorem entry_of_constraintExists (h : t.constraintExists fs a number = .ok true) :
    ∃ path id d, t.zonePath a = .ok path ∧ fs.locate true path = .ok id ∧
      fs.directory? id = some d ∧
      .text (ConstraintAttribute.powerLimit.fileName number) ∈ d.entries.map Prod.fst := by
  obtain ⟨file, hfile, hregular⟩ := constraintExists_eq_ok_iff.mp h
  obtain ⟨-, path, hpath, rfl, -⟩ := attributePath_eq_ok.mp hfile
  obtain ⟨p, hp⟩ : ∃ p, fs.locate true _ = .ok p := by
    unfold FileSystem.isRegularFile at hregular
    split at hregular
    next p hp => exact ⟨p, hp⟩
    next => cases hregular
  obtain ⟨id, d, hid, hd, hmem⟩ :=
    FileSystem.exists_entry_of_join (openPath_of_zonePath hpath) (Attribute.plainName _) hp
  exact ⟨path, id, d, hpath, hid, hd, hmem⟩

theorem countsExactly_zones (hproper : a.refusal? = none) (hdepth : a.zones.length < maxDepth) :
    CountsExactly (fun i => t.wholePath (a.child i)) (fun i => t.zoneExists fs (a.child i))
      (t.entriesAt fs a) (t.zoneCount fs a) := by
  rw [zoneCount, if_neg (Nat.not_le.mpr hdepth), probeBound_eq]
  refine .of_entries (fun n e h => ?_) fun count hcount hexist => ?_
  · exact zonePath_eq_error ((Address.refusal?_child hdepth n).trans hproper)
      (zoneExists_eq_error_iff.mp h)
  · exact le_entriesAt (fun i => (a.child i).directoryName)
      (fun _ _ => directoryName_child_inj) hcount fun i hi => entry_of_zoneExists (hexist i hi)

theorem countsExactly_constraints (hproper : a.refusal? = none) :
    CountsExactly
      (fun i => join (t.wholePath a) (ConstraintAttribute.powerLimit.fileName i))
      (t.constraintExists fs a) (t.entriesAt fs a) (t.constraintCount fs a) := by
  rw [constraintCount, probeBound_eq]
  refine .of_entries (fun n e h => ?_) fun count hcount hexist => ?_
  · have hattr : (Attribute.constraint n .powerLimit).refusal? a = none := hproper
    exact attributePath_eq_error hattr (constraintExists_eq_error_iff.mp h)
  · exact le_entriesAt (ConstraintAttribute.powerLimit.fileName ·)
      (fun _ _ h => (Attribute.constraint_fileName_inj h).1) hcount
      fun i hi => entry_of_constraintExists (hexist i hi)

end Tree

/-- **Probing counts are exact.** At a plain control type, and not too deep, zones and
constraints are counted by a loop that ends, with fewer entries in the directory probed
than the counter has values: at the first index that does not exist, if its path is not
too long. No more exist without a gap than the directory has entries. Zones can be
counted where there may be a level below. -/
theorem probing_counts_exactly {t : Tree} {fs : FileSystem} {a : Address}
    (hplain : plainComponent a.controlType = true) (hdepth : a.zones.length ≤ maxDepth) :
    (a.zones.length < maxDepth →
      CountsExactly (fun i => t.wholePath (a.child i)) (fun i => t.zoneExists fs (a.child i))
        (t.entriesAt fs a) (t.zoneCount fs a)) ∧
    CountsExactly
      (fun i => join (t.wholePath a) (ConstraintAttribute.powerLimit.fileName i))
      (t.constraintExists fs a) (t.entriesAt fs a) (t.constraintCount fs a) := by
  have hproper : a.refusal? = none := by
    rw [Address.refusal?, if_pos hplain, if_neg (Nat.not_lt.mpr hdepth)]
  exact ⟨Tree.countsExactly_zones hproper, Tree.countsExactly_constraints hproper⟩

/-- One zone and no constraint are counted below a control type. -/
theorem probing_counts_exactly_lone :
    let t : Tree := { root := "/class" }
    let fs := Tree.lone "pkg0:0" (by decide)
    let a : Address := { controlType := "pkg0" }
    plainComponent a.controlType = true ∧ a.zones.length < maxDepth ∧
      (t.entriesAt fs a = 1 ∧ t.zoneCount fs a = .ok 1 ∧ t.constraintCount fs a = .ok 0) ∧
      CountsExactly (fun i => t.wholePath (a.child i)) (fun i => t.zoneExists fs (a.child i))
        (t.entriesAt fs a) (t.zoneCount fs a) ∧
      CountsExactly
        (fun i => join (t.wholePath a) (ConstraintAttribute.powerLimit.fileName i))
        (t.constraintExists fs a) (t.entriesAt fs a) (t.constraintCount fs a) := by
  intro t fs a
  have hplain : plainComponent a.controlType = true := by decide
  have hdepth : a.zones.length < maxDepth := by decide
  obtain ⟨hzones, hconstraints⟩ :=
    @probing_counts_exactly t fs a hplain (Nat.le_of_lt hdepth)
  exact ⟨hplain, hdepth, by decide +kernel, hzones hdepth, hconstraints⟩

end PowerZones
