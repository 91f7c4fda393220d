import PowerZones.Attribute
import PowerZones.Proofs.Files.Route
import PowerZones.Proofs.Text.Digits

/-!
# File names of attributes

A file name tells the attribute it belongs to, and is never taken for the name of
a zone's directory.

* **`Attribute.plainName`**: a file name stands for one step down, and it has no
  colon, which every zone's directory has.
* **`Attribute.fileName_eq_iff`**: two attributes share a file name just if they
  are the same, or are the switch of a control type and that of a zone.
-/

namespace PowerZones

/-- What stands on either side of the first separator is determined by the whole. -/
theorem append_separator_inj {α : Type} [DecidableEq α] {separator : α} {x x' y y' : List α}
    (hx : separator ∉ x) (hx' : separator ∉ x')
    (h : x ++ separator :: y = x' ++ separator :: y') : x = x' ∧ y = y' := by
  have hsplit := congrArg (splitAt separator) h
  rw [splitAt_append, splitAt_append, splitAt_of_not_mem _ _ hx, splitAt_of_not_mem _ _ hx',
    List.singleton_append, List.singleton_append] at hsplit
  obtain rfl := (List.cons.inj hsplit).1
  exact ⟨rfl, (List.cons.inj (List.append_cancel_left h)).2⟩

theorem Numeral.repr_inj {i j : UInt32} (h : Nat.repr i.toNat = Nat.repr j.toNat) : i = j := by
  have hread := congrArg (fun s => index? s.toList) h
  simp only [index?_repr] at hread
  exact Option.some.inj hread

namespace Attribute

/-- Whether the attribute is one of the two that are called `enabled`: the switch
of a control type, or that of a zone. -/
def isSwitch : Attribute → Bool
  | .controlType .enabled | .zone .enabled => true
  | _ => false

/-- A character of a file name: a letter, a digit or an underscore. -/
private def fileNameChar (c : Char) : Bool :=
  c.isAlphanum || c = '_'

private theorem all_fileNameChar (attr : Attribute) :
    attr.fileName.toList.all fileNameChar = true := by
  cases attr with
  | controlType a => cases a; decide
  | zone a => cases a <;> decide
  | constraint number a =>
    have hdigits : (Nat.repr number.toNat).toList.all fileNameChar = true := by
      refine List.all_eq_true.mpr fun c hc => ?_
      rw [Nat.toList_repr] at hc
      have hdigit := Nat.isDigit_of_mem_toDigits (by decide) (by decide) hc
      simp [fileNameChar, Char.isAlphanum, hdigit]
    have hsuffix : a.suffix.toList.all fileNameChar = true := by cases a <;> decide
    simp only [fileName, ConstraintAttribute.fileName, String.toList_append, List.all_append,
      hdigits, hsuffix]
    decide

private theorem fileNameChar_of_mem {attr : Attribute} {c : Char} (hc : c ∈ attr.fileName.toList) :
    fileNameChar c = true :=
  List.all_eq_true.mp attr.all_fileNameChar c hc

theorem colon_notMem_fileName (attr : Attribute) : ':' ∉ attr.fileName.toList :=
  fun hc => absurd (fileNameChar_of_mem hc) (by decide)

theorem fileName_ne_empty (attr : Attribute) : attr.fileName ≠ "" := by
  cases attr with
  | controlType a => cases a; decide
  | zone a => cases a <;> decide
  | constraint number a => simp [fileName, ConstraintAttribute.fileName]

/-- A file name stands for one step down. -/
theorem plainName (attr : Attribute) : PlainName attr.fileName where
  ne_empty := attr.fileName_ne_empty
  ne_here h := by
    have hdot : '.' ∈ attr.fileName.toList := by rw [h]; decide
    exact absurd (fileNameChar_of_mem hdot) (by decide)
  ne_up h := by
    have hdot : '.' ∈ attr.fileName.toList := by rw [h]; decide
    exact absurd (fileNameChar_of_mem hdot) (by decide)
  slash hc := absurd (fileNameChar_of_mem hc) (by decide)

/-! ## Telling attributes apart -/

/-- The number and the attribute of a constraint are both read off the file name:
the underscore after the number is the first one after the common beginning. -/
theorem constraint_fileName_inj {number number' : UInt32} {a a' : ConstraintAttribute}
    (h : a.fileName number = a'.fileName number') : number = number' ∧ a = a' := by
  have hlist := congrArg String.toList h
  simp only [ConstraintAttribute.fileName, String.toList_append, List.append_assoc] at hlist
  have hrest := List.append_cancel_left hlist
  have hdigits (n : Nat) : '_' ∉ (Nat.repr n).toList := by
    rw [Nat.toList_repr]
    exact fun hc => absurd (Numeral.isDigit_of_mem_toDigits hc) (by decide)
  obtain ⟨hnumber, hsuffix⟩ := append_separator_inj (hdigits _) (hdigits _) hrest
  exact ⟨Numeral.repr_inj (String.toList_inj.mp hnumber),
    Vocabulary.name_injective a a' (String.toList_inj.mp hsuffix)⟩

theorem constraint_fileName_ne (number : UInt32) (a : ConstraintAttribute) {attr : Attribute}
    (hattr : ∀ number' a', attr ≠ .constraint number' a') : a.fileName number ≠ attr.fileName := by
  intro h
  have hstart : "constraint_".toList <+: attr.fileName.toList := by
    rw [← h, ConstraintAttribute.fileName, String.append_assoc, String.append_assoc,
      String.toList_append]
    exact List.prefix_append _ _
  cases attr with
  | controlType a => cases a; revert hstart; decide
  | zone a => cases a <;> revert hstart <;> decide
  | constraint number' a' => exact hattr number' a' rfl

/-- A file name tells the attribute, but for the two switches. -/
theorem fileName_eq_iff {attr attr' : Attribute} : attr.fileName = attr'.fileName ↔
    attr = attr' ∨ attr.isSwitch = true ∧ attr'.isSwitch = true := by
  constructor
  · intro h
    cases attr with
    | constraint number a =>
      cases attr' with
      | constraint number' a' =>
        obtain ⟨rfl, rfl⟩ := constraint_fileName_inj h
        exact .inl rfl
      | controlType a' => exact absurd h (constraint_fileName_ne number a (by simp))
      | zone a' => exact absurd h (constraint_fileName_ne number a (by simp))
    | controlType a =>
      cases attr' with
      | constraint number a' => exact absurd h.symm (constraint_fileName_ne number a' (by simp))
      | controlType a' => cases a; cases a'; exact .inl rfl
      | zone a' => cases a; revert h; cases a' <;> decide
    | zone a =>
      cases attr' with
      | constraint number a' => exact absurd h.symm (constraint_fileName_ne number a' (by simp))
      | controlType a' => cases a'; revert h; cases a <;> decide
      | zone a' => exact .inl (congrArg zone (Vocabulary.name_injective a a' h))
  · rintro (rfl | ⟨h, h'⟩)
    · rfl
    · -- both names are `enabled`
      have henabled {attr : Attribute} (h : attr.isSwitch = true) : attr.fileName = "enabled" := by
        unfold isSwitch at h
        split at h
        · rfl
        · rfl
        · cases h
      rw [henabled h, henabled h']

/-- Of two different switches one is a control type's. -/
theorem ofControlType_of_isSwitch {attr attr' : Attribute} (h : attr.isSwitch = true)
    (h' : attr'.isSwitch = true) (hne : attr ≠ attr') :
    attr.ofControlType = true ∨ attr'.ofControlType = true := by
  unfold isSwitch at h h'
  split at h
  · exact .inl rfl
  · split at h'
    · exact .inr rfl
    · exact absurd rfl hne
    · cases h'
  · cases h

end Attribute

end PowerZones
