import PowerZones.Proofs.Action.Refusal
import PowerZones.Proofs.Tree.Address

/-!
# Refused addresses

What is refused of an address, and that everything done at it is refused for just
that, from a path to a whole package.

* **`Address.Improper`**, **`Address.Lacks`** say what may be wrong with an address and
  an attribute of it;
* **`Address.refusal?`** and its like say why it is refused, in the order in which things
  are looked at;
* **`Tree.zonePath_eq_error`**, **`Tree.attributePath_eq_error`**: what is not refused has
  a path, unless that is too long;
* **`Tree.refusalOf_zonePath`**, **`Tree.refusalOf_zoneCount`** and so on: what looks at the
  file system is refused for the same in every one;
* **`Tree.refuses_openZone`**, **`Tree.accepts_openPackage`** and so on: what opens
  descriptors is refused before anything is open, and RAPL is never refused.
-/

namespace PowerZones

open PowerZones.Action

/-! ## Addresses -/

/-- The control type is not one plain component of a path, without any dot, or
there are too many levels. -/
def Address.Improper (a : Address) : Prop :=
  a.controlType = "" ∨ '.' ∈ a.controlType.toList ∨ '/' ∈ a.controlType.toList ∨
    16 < a.zones.length

/-- An attribute of control types is asked of a zone. -/
def Address.Lacks (a : Address) (attr : Attribute) : Prop :=
  attr.ofControlType = true ∧ a.zones ≠ []

/-- Why an address is refused: first for its control type, then for its depth. -/
def Address.refusal? (a : Address) : Option Refusal :=
  if plainComponent a.controlType then
    if a.zones.length > maxDepth then some (.tooDeep a.zones.length maxDepth) else none
  else some (.controlTypeName a.controlType)

/-- Why an attribute is refused at an address. -/
def Attribute.refusal? (attr : Attribute) (a : Address) : Option Refusal :=
  if attr.ofControlType ∧ a.zones ≠ [] then some (.notInZone attr.fileName) else a.refusal?

/-- Why the zones below an address cannot be counted. -/
def Address.countRefusal? (parent : Address) : Option Refusal :=
  if parent.zones.length ≥ maxDepth then some .noLevelBelow else parent.refusal?

/-- Why an attribute at an address cannot be written. -/
def Attribute.writeRefusal? (attr : Attribute) (a : Address) : Option Refusal :=
  if attr.writable then attr.refusal? a else some attr.neverWritten

theorem plainComponent_eq_false (name : String) :
    plainComponent name = false ↔ name = "" ∨ '.' ∈ name.toList ∨ '/' ∈ name.toList := by
  simp only [plainComponent, ne_eq, Bool.and_eq_false_iff, decide_eq_false_iff_not,
    Decidable.not_not, Bool.not_eq_false', List.contains_eq_mem, decide_eq_true_eq, or_assoc]

namespace Address

theorem isSome_refusal? (a : Address) : a.refusal?.isSome = true ↔ a.Improper := by
  have hname : a.Improper ↔ plainComponent a.controlType = false ∨ 16 < a.zones.length := by
    rw [plainComponent_eq_false, or_assoc, or_assoc, Improper]
  rw [hname, refusal?]
  cases hplain : plainComponent a.controlType with
  | false => simp
  | true =>
    by_cases hdeep : a.zones.length > maxDepth
    · simp [hdeep, show 16 < a.zones.length from hdeep]
    · simp [hdeep, show ¬16 < a.zones.length from hdeep]

theorem isSome_attributeRefusal? (a : Address) (attr : Attribute) :
    (attr.refusal? a).isSome = true ↔ a.Improper ∨ a.Lacks attr := by
  unfold Attribute.refusal?
  rw [← isSome_refusal?, or_comm]
  by_cases hlacks : attr.ofControlType = true ∧ a.zones ≠ []
  · simp [Lacks, hlacks]
  · simp [Lacks, hlacks]

theorem isSome_countRefusal? (parent : Address) :
    parent.countRefusal?.isSome = true ↔ parent.Improper ∨ 16 ≤ parent.zones.length := by
  unfold countRefusal?
  rw [← isSome_refusal?, or_comm]
  by_cases hdeep : parent.zones.length ≥ maxDepth
  · simp [hdeep, show 16 ≤ parent.zones.length from hdeep]
  · simp [hdeep, show ¬16 ≤ parent.zones.length from hdeep]

theorem isSome_writeRefusal? (a : Address) (attr : Attribute) :
    (attr.writeRefusal? a).isSome = true ↔
      a.Improper ∨ a.Lacks attr ∨ attr.writable = false := by
  unfold Attribute.writeRefusal?
  rw [← or_assoc, ← isSome_attributeRefusal?]
  cases attr.writable <;> simp

/-- A plain control type is not refused, nor a zone of it that is not too deep. -/
theorem refusal?_of_plain {a : Address} (hplain : plainComponent a.controlType = true)
    (hdepth : a.zones.length ≤ maxDepth) : a.refusal? = none := by
  rw [refusal?, if_pos hplain, if_neg (Nat.not_lt.mpr hdepth)]

/-- Zones are counted where the level below is allowed, so that no index makes a
difference. -/
theorem refusal?_child {parent : Address} (h : parent.zones.length < maxDepth) (index : UInt32) :
    (parent.child index).refusal? = parent.refusal? := by
  have hparent : ¬parent.zones.length > maxDepth := by omega
  have hchild : ¬(parent.child index).zones.length > maxDepth := by
    simp only [child, List.length_append, List.length_singleton]
    omega
  rw [refusal?, refusal?, if_neg hparent, if_neg hchild]
  rfl

/-- The control type itself has all of its attributes. -/
theorem attributeRefusal?_controlType (controlType : String) (attr : Attribute) :
    attr.refusal? { controlType := controlType } =
      ({ controlType := controlType } : Address).refusal? := by
  simp [Attribute.refusal?]

/-- No RAPL zone that a package opens is refused. -/
theorem refusal?_rapl {zones : List UInt32} (h : zones.length ≤ maxDepth) :
    (raplAddress zones).refusal? = none := by
  have hplain : plainComponent raplControlType = true := by decide
  exact refusal?_of_plain hplain h

end Address

/-! ## Paths, questions, counts -/

namespace Tree

variable (t : Tree) (a : Address) (fs : FileSystem)

theorem refusalOf_checkSize (path : String) : refusalOf (checkSize path) = none := by
  unfold checkSize
  split <;> rfl

/-- Whether an address is refused does not depend on where the tree is. -/
theorem refusalOf_zonePath : refusalOf (t.zonePath a) = a.refusal? := by
  unfold zonePath Address.refusal? checkControlType checkDepth
  cases hplain : plainComponent a.controlType with
  | false => rfl
  | true =>
    by_cases hdeep : a.zones.length > maxDepth
    · simp only [if_pos hdeep]
      rfl
    · simp only [if_neg hdeep]
      exact refusalOf_checkSize _

theorem refusalOf_attributePath (attr : Attribute) :
    refusalOf (t.attributePath a attr) = attr.refusal? a := by
  unfold attributePath Attribute.refusal?
  split
  · rfl
  · rw [refusalOf_bind fun _ => refusalOf_checkSize _]
    exact t.refusalOf_zonePath a

/-- The path of an address, however long and whether or not it is refused. -/
def wholePath : String :=
  a.directoryNames.foldl join t.root

section Whole

variable {t a} {path : String} {attr : Attribute} {e : Failure}

theorem checkSize_eq_error (h : checkSize path = .error e) :
    e = .pathTooLong path.utf8ByteSize ∧ maxPathSize ≤ path.utf8ByteSize := by
  unfold checkSize at h
  split at h
  next hsize => exact ⟨(Except.error.inj h).symm, hsize⟩
  next => cases h

/-- Of an address that is not refused only the length of the path is checked. -/
theorem zonePath_of_proper (hproper : a.refusal? = none) :
    t.zonePath a = checkSize (t.wholePath a) := by
  unfold Address.refusal? at hproper
  unfold zonePath checkControlType checkDepth
  split at hproper
  next hplain =>
    split at hproper
    next => cases hproper
    next hdepth =>
      rw [if_pos hplain, if_neg hdepth]
      rfl
  next => cases hproper

/-- An address that is not refused has a path, unless it is too long. -/
theorem zonePath_eq_error (hproper : a.refusal? = none) (h : t.zonePath a = .error e) :
    (∃ size, e = .pathTooLong size ∧ maxPathSize ≤ size) ∧
      maxPathSize ≤ (t.wholePath a).utf8ByteSize := by
  rw [zonePath_of_proper hproper] at h
  obtain ⟨rfl, hsize⟩ := checkSize_eq_error h
  exact ⟨⟨_, rfl, hsize⟩, hsize⟩

/-- An attribute that is not refused has a path, unless it is too long: already that of
the address, or only with the file name. -/
theorem attributePath_eq_error (hproper : attr.refusal? a = none)
    (h : t.attributePath a attr = .error e) :
    (∃ size, e = .pathTooLong size ∧ maxPathSize ≤ size) ∧
      maxPathSize ≤ (join (t.wholePath a) attr.fileName).utf8ByteSize := by
  unfold Attribute.refusal? at hproper
  unfold attributePath at h
  split at hproper
  next => cases hproper
  next hlacks =>
    rw [if_neg hlacks] at h
    cases hzone : t.zonePath a with
    | error e' =>
      rw [hzone] at h
      obtain rfl := Except.error.inj h
      obtain ⟨hlong, hsize⟩ := zonePath_eq_error hproper hzone
      exact ⟨hlong, Nat.le_trans hsize (utf8ByteSize_le_join _ _)⟩
    | ok directory =>
      rw [hzone] at h
      obtain ⟨rfl, hsize⟩ := checkSize_eq_error h
      obtain ⟨-, -, hdirectory, -⟩ := zonePath_eq_ok.mp hzone
      exact ⟨⟨_, rfl, hsize⟩, by rwa [wholePath, hdirectory]⟩

end Whole

theorem refusalOf_zoneExists : refusalOf (t.zoneExists fs a) = a.refusal? := by
  rw [← t.refusalOf_zonePath a]
  exact refusalOf_bind fun _ => rfl

theorem refusalOf_constraintExists (number : UInt32) :
    refusalOf (t.constraintExists fs a number) = a.refusal? := by
  have hattr : (Attribute.constraint number .powerLimit).refusal? a = a.refusal? := rfl
  rw [← hattr, ← t.refusalOf_attributePath a]
  exact refusalOf_bind fun _ => rfl

/-- Probing is refused where looking for any one index is, and the first look
shows it. -/
theorem refusalOf_probe {present : UInt32 → Except Failure Bool} {why? : Option Refusal}
    (h : ∀ index, refusalOf (present index) = why?) (bound : Nat) (index : UInt32) :
    refusalOf (probe present (bound + 1) index) = why? := by
  induction bound generalizing index with
  | zero =>
    have hfirst := h index
    rw [probe]
    cases hpresent : present index with
    | error e => rwa [hpresent] at hfirst
    | ok b => rw [hpresent] at hfirst; cases b <;> exact hfirst
  | succ bound ih =>
    have hfirst := h index
    rw [probe]
    cases hpresent : present index with
    | error e => rwa [hpresent] at hfirst
    | ok b =>
      rw [hpresent] at hfirst
      cases b with
      | true => exact ih (index + 1)
      | false => exact hfirst

theorem exists_probeBound : ∃ bound, t.probeBound fs a = bound + 1 := by
  unfold probeBound
  cases t.zonePath a with
  | error e => exact ⟨0, rfl⟩
  | ok path => exact ⟨_, rfl⟩

theorem refusalOf_zoneCount : refusalOf (t.zoneCount fs a) = a.countRefusal? := by
  unfold zoneCount Address.countRefusal?
  split
  · rfl
  next hdepth =>
    obtain ⟨bound, hbound⟩ := t.exists_probeBound a fs
    rw [hbound]
    refine refusalOf_probe ?_ bound 0
    intro index
    rw [refusalOf_zoneExists, Address.refusal?_child (Nat.not_le.mp hdepth)]

theorem refusalOf_constraintCount : refusalOf (t.constraintCount fs a) = a.refusal? := by
  obtain ⟨bound, hbound⟩ := t.exists_probeBound a fs
  rw [constraintCount, hbound]
  exact refusalOf_probe (t.refusalOf_constraintExists a fs) bound 0

theorem refusalOf_zoneIndices : refusalOf (t.zoneIndices fs a) = a.refusal? := by
  rw [← t.refusalOf_zonePath a, zoneIndices]
  cases t.zonePath a with
  | error e => rfl
  | ok path =>
    simp only
    split
    · cases fs.subdirectories path <;> rfl
    · rfl

theorem refusalOf_controlTypes : refusalOf (t.controlTypes fs) = none := by
  unfold controlTypes
  cases fs.subdirectories t.root <;> rfl

/-! ## One-shot access -/

variable (attr : Attribute)

theorem refuses_readNumber : (t.readNumber a attr).Refuses (attr.refusal? a) := by
  rw [← t.refusalOf_attributePath a]
  exact (refuses_ofExcept _).bind fun _ => accepts_withFile accepts_readNumber

theorem refuses_readName : (t.readName a attr).Refuses (attr.refusal? a) := by
  rw [← t.refusalOf_attributePath a]
  exact (refuses_ofExcept _).bind fun _ =>
    accepts_withFile fun id => accepts_readText id (by decide)

theorem refuses_writeNumber (v : UInt64) :
    (t.writeNumber a attr v).Refuses (attr.writeRefusal? a) := by
  unfold writeNumber Attribute.writeRefusal?
  cases attr.writable with
  | true =>
    rw [← t.refusalOf_attributePath a]
    exact (refuses_ofExcept _).bind fun _ =>
      accepts_withFile fun id => accepts_writeNumber id v
  | false => exact fun host => rfl

/-- There may be no packages, but nothing is refused. -/
theorem accepts_packageCount : t.packageCount.Accepts := by
  have hcount (fs : FileSystem) : refusalOf (t.zoneCount fs (raplAddress [])) = none :=
    t.refusalOf_zoneCount _ fs
  refine (refuses_query hcount).bind ?_
  intro count
  split
  · exact (accepts_note _ _ _).bind fun _ => accepts_fail rfl
  · exact accepts_pure _

/-! ## Opening -/

/-- Once there is a path, whatever goes wrong on opening is no refusal. -/
theorem refuses_openSlot (write : Bool) :
    (t.openSlot a attr write).Refuses (attr.refusal? a) := by
  rw [← t.refusalOf_attributePath a]
  refine (refuses_ofExcept _).bind ?_
  intro path
  have hjudge : (query fun fs => .ok (fs.judge path write attr.fallsBack)).Accepts := by
    exact refuses_query fun _ => rfl
  refine hjudge.bind ?_
  intro verdict
  cases verdict with
  | missing => exact (accepts_note _ _ _).bind fun _ => accepts_pure _
  | granted node access grant =>
    exact (accepts_openNode node access).bind fun _ => accepts_pure _
  | refused retried why =>
    exact (accepts_note _ _ _).bind fun _ => accepts_fail (Failure.refusal?_ofOpening path why)

end Tree

/-- All slots of a table are refused for one reason, and so the first is, before
anything is open. -/
theorem Slots.refuses_openAll {α : Type} {openOne : α → Action Slot} {why? : Option Refusal}
    (h : ∀ a, (openOne a).Refuses why?) (first : α) (rest : List α) :
    (openAll openOne (first :: rest)).Refuses why? := by
  cases why? with
  | some why =>
    intro host
    rw [openAll, run_bind, h first host]
  | none =>
    have hall (as : List α) : (openAll openOne as).Accepts := by
      induction as with
      | nil => exact accepts_pure _
      | cons a rest ih =>
        refine (h a).bind ?_
        intro slot
        exact (accepts_onFailure _ ih).bind fun _ => accepts_pure _
    exact hall (first :: rest)

namespace Tree

variable (t : Tree) (a : Address) (readOnly : Bool)

theorem refuses_openControlType (name : String) :
    (t.openControlType name readOnly).Refuses ({ controlType := name } : Address).refusal? := by
  rw [← Address.attributeRefusal?_controlType name (.controlType .enabled)]
  exact (t.refuses_openSlot _ _ _).bind fun _ => accepts_pure _

theorem refuses_openZone : (t.openZone a readOnly).Refuses a.refusal? :=
  (Slots.refuses_openAll (fun attr => t.refuses_openSlot a (.zone attr) _) _ _).returns _

theorem refuses_openConstraint (number : UInt32) :
    (t.openConstraint a number readOnly).Refuses a.refusal? :=
  (Slots.refuses_openAll
    (fun attr => t.refuses_openSlot a (.constraint number attr) _) _ _).returns _

/-- A RAPL zone that is not too deep is not refused. -/
theorem accepts_openDomain {zones : List UInt32} (h : zones.length ≤ maxDepth) :
    (t.openDomain zones readOnly).Accepts := by
  have hzone := t.refuses_openZone (raplAddress zones) readOnly
  have hconstraint := t.refuses_openConstraint (raplAddress zones) readOnly
  rw [Address.refusal?_rapl h] at hzone hconstraint
  have hmisnamed (c : Constraint) (term : Term) : (c.misnamed term).Accepts := by
    refine (accepts_attempt _).bind ?_
    intro name
    cases name <;> exact accepts_pure _
  refine hzone.bind fun zone => ?_
  refine (accepts_onFailure _ (hconstraint _)).bind fun longTerm => ?_
  refine (accepts_onFailure _ (hconstraint _)).bind fun shortTerm => ?_
  refine (hmisnamed _ _).bind fun long => (hmisnamed _ _).bind fun short => ?_
  split
  · exact (accepts_note _ _ _).bind fun _ => accepts_pure _
  · exact accepts_pure _

theorem accepts_identify {zones : List UInt32} (h : zones.length ≤ maxDepth) :
    (t.identify zones).Accepts := by
  have hname := t.refuses_readName (raplAddress zones) (.zone .name)
  rw [show (Attribute.zone .name).refusal? (raplAddress zones) = none from
    Address.refusal?_rapl h] at hname
  refine hname.bind fun name => ?_
  split
  · exact accepts_pure _
  · exact (accepts_note _ _ _).bind fun _ => accepts_fail rfl

theorem accepts_openSubzone (id : UInt32) (met : List (Domain × PowerDomain)) (index : UInt32) :
    (t.openSubzone id readOnly met index).Accepts := by
  have hdepth : [id, index].length ≤ maxDepth := by simp [maxDepth]
  refine (t.accepts_identify hdepth).bind fun domain => ?_
  split
  · exact (accepts_note _ _ _).bind fun _ => accepts_fail rfl
  · exact (t.accepts_openDomain readOnly hdepth).bind fun _ => accepts_pure _

theorem accepts_openSubzones (id : UInt32) (met : List (Domain × PowerDomain))
    (indices : List UInt32) : (t.openSubzones id readOnly met indices).Accepts := by
  induction indices generalizing met with
  | nil => exact accepts_pure _
  | cons index rest ih =>
    rw [t.openSubzones_cons]
    exact (accepts_onFailure _ (t.accepts_openSubzone readOnly id met index)).bind fun _ => ih _

theorem accepts_openPackage (id : UInt32) : (t.openPackage id readOnly).Accepts := by
  have hdepth : [id].length ≤ maxDepth := by simp [maxDepth]
  have hcount (fs : FileSystem) : refusalOf (t.zoneCount fs (raplAddress [id])) = none := by
    rw [t.refusalOf_zoneCount]
    exact Address.refusal?_rapl hdepth
  refine (t.accepts_identify hdepth).bind fun domain => ?_
  refine (t.accepts_openDomain readOnly hdepth).bind fun opened => ?_
  refine (accepts_onFailure _ (refuses_query hcount)).bind fun count => ?_
  exact (t.accepts_openSubzones readOnly id _ _).bind fun _ => accepts_pure _

end Tree

end PowerZones
