import Mathlib.Data.List.Forall2
import Mathlib.Data.List.Perm.Basic

/-!
# Keyed lists

Directories, descriptors, handles, slots and domains are all kept as lists of
entries under keys. Where every key occurs once, looking up a key is the same as
having the entry, and taking a key away takes one entry.
-/

namespace PowerZones.Keyed

variable {κ ν : Type} [DecidableEq κ] {entries : List (κ × ν)} {key : κ} {value : ν}

theorem mem_of_lookup (h : entries.lookup key = some value) : (key, value) ∈ entries := by
  obtain ⟨l₁, l₂, rfl, -⟩ := List.lookup_eq_some_iff.mp h
  simp

/-- Where keys occur once, every entry is found under its key. -/
theorem lookup_of_mem (hnodup : (entries.map Prod.fst).Nodup) (h : (key, value) ∈ entries) :
    entries.lookup key = some value := by
  induction entries with
  | nil => cases h
  | cons entry rest ih =>
    rw [List.map_cons, List.nodup_cons] at hnodup
    rcases List.mem_cons.mp h with rfl | hrest
    · exact List.lookup_cons_self
    · -- the first entry has another key, since keys occur once
      have hne : (key == entry.1) = false := by
        refine beq_eq_false_iff_ne.mpr fun heq => hnodup.1 ?_
        exact List.mem_map.mpr ⟨(key, value), hrest, heq⟩
      rw [List.lookup_cons, hne]
      exact ih hnodup.2 hrest

/-- Some entry has a key just if something is found under it. -/
theorem isSome_lookup_iff : (entries.lookup key).isSome = true ↔ key ∈ entries.map Prod.fst := by
  rw [List.lookup_isSome_iff, List.mem_map]
  exact exists_congr fun e => and_congr_right fun _ => by rw [beq_iff_eq, eq_comm]

/-- Lists with the same keys in the same order, and related values, give related values
for every key. -/
theorem rel_lookup {ν' : Type} {R : ν → ν' → Prop} {others : List (κ × ν')}
    (h : List.Forall₂ (fun e e' => e.1 = e'.1 ∧ R e.2 e'.2) entries others) (key : κ) :
    Option.Rel R (entries.lookup key) (others.lookup key) := by
  induction h with
  | nil => exact .none
  | @cons e e' entries others he _ ih =>
    obtain ⟨own, value⟩ := e
    obtain ⟨_, value'⟩ := e'
    obtain ⟨rfl, hvalue⟩ := he
    simp only [List.lookup_cons]
    cases key == own with
    | true => exact .some hvalue
    | false => exact ih

/-- What is done to every value is done to the one that is found. -/
theorem lookup_map {ν' : Type} (f : ν → ν') (entries : List (κ × ν)) (key : κ) :
    (entries.map fun e => (e.1, f e.2)).lookup key = (entries.lookup key).map f := by
  induction entries with
  | nil => rfl
  | cons e rest ih =>
    obtain ⟨own, value⟩ := e
    simp only [List.map_cons, List.lookup_cons]
    cases key == own with
    | true => rfl
    | false => exact ih

/-- Taking away a key that no entry has takes nothing away. -/
theorem filter_of_not_mem (h : key ∉ entries.map Prod.fst) :
    (entries.filter fun e => e.1 ≠ key) = entries := by
  refine List.filter_eq_self.mpr fun e he => ?_
  have hne : e.1 ≠ key := fun heq => h (List.mem_map.mpr ⟨e, he, heq⟩)
  simpa using hne

/-- Where keys occur once, the entry under a key and those under others are all
there is. -/
theorem perm_of_lookup (hnodup : (entries.map Prod.fst).Nodup)
    (h : entries.lookup key = some value) :
    entries.Perm ((key, value) :: entries.filter fun e => e.1 ≠ key) := by
  induction entries with
  | nil => cases h
  | cons entry rest ih =>
    rw [List.map_cons, List.nodup_cons] at hnodup
    by_cases hkey : key = entry.1
    · subst hkey
      rw [List.lookup_cons_self, Option.some.injEq] at h
      subst h
      rw [List.filter_cons_of_neg (by simp), filter_of_not_mem hnodup.1]
    · have hne : (key == entry.1) = false := by simpa using hkey
      rw [List.lookup_cons, hne] at h
      rw [List.filter_cons_of_pos (by simpa using Ne.symm hkey)]
      exact ((ih hnodup.2 h).cons _).trans (.swap _ _ _)

end PowerZones.Keyed
