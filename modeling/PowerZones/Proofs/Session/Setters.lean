import PowerZones.Proofs.Action.Stillness
import PowerZones.Proofs.Session.Descriptors

/-!
# Setters

Some requests set an attribute to a number. All the others leave every file as it
is, so what may happen to the files can be told from what is set.

* **`SlotKey`** names a slot of a handle, and **`Handle.slot`** is the slot; a slot
  that the handle lacks is absent, like one that is closed.
* **`OneShot.set?`** and **`Call.set?`** are what a request sets, if it sets anything.
* **`OneShot.act_of_set?`**, **`Handle.call_of_set?`**: to set is to write the number,
  once or to the slot;
* **`OneShot.still_of_set?`**, **`Handle.silent_of_set?`**: all else leaves the files.
-/

namespace PowerZones

open PowerZones.Action

/-! ## What is set -/

/-- A slot of a handle. -/
inductive SlotKey where
  /-- The switch of a control type. -/
  | controlType
  | zone (attr : ZoneAttribute)
  | constraint (attr : ConstraintAttribute)
  /-- A slot of the zone of a domain. -/
  | domainZone (k : Domain) (attr : ZoneAttribute)
  /-- A slot of the constraint of a domain for a term. -/
  | domainConstraint (k : Domain) (term : Term) (attr : ConstraintAttribute)
  deriving DecidableEq, Repr

/-- The attribute that a one-shot access sets, and the number it is set to. -/
def OneShot.set? : OneShot → Option (Address × Attribute × UInt64)
  | .writeNumber a attr v => some (a, attr, v)
  | .setControlTypeEnabled controlType on =>
    some ({ controlType := controlType }, .controlType .enabled, switchNumber on)
  | .setZoneEnabled a on => some (a, .zone .enabled, switchNumber on)
  | .resetZoneEnergy a => some (a, .zone .energy, 0)
  | .setRaplEnabled on =>
    some ({ controlType := raplControlType }, .controlType .enabled, switchNumber on)
  | _ => none

/-- The number that a call sets the switch of a control type to. -/
def ControlTypeCall.set? : ControlTypeCall → Option UInt64
  | .setEnabled on => some (switchNumber on)
  | _ => none

/-- The attribute of a zone that a call sets, and the number it is set to. -/
def ZoneCall.set? : ZoneCall → Option (ZoneAttribute × UInt64)
  | .resetEnergy => some (.energy, 0)
  | .setEnabled on => some (.enabled, switchNumber on)
  | _ => none

/-- The attribute of a constraint that a call sets, and the number it is set to. -/
def ConstraintCall.set? : ConstraintCall → Option (ConstraintAttribute × UInt64)
  | .setPowerLimit v => some (.powerLimit, v)
  | .setTimeWindow v => some (.timeWindow, v)
  | _ => none

/-- The slot that a call sets, and the number it is set to. -/
def Call.set? : Call → Option (SlotKey × UInt64)
  | .controlType call => call.set?.map fun v => (.controlType, v)
  | .zone call => call.set?.map fun s => (.zone s.1, s.2)
  | .constraint call => call.set?.map fun s => (.constraint s.1, s.2)
  | .package (.zone k call) => call.set?.map fun s => (.domainZone k s.1, s.2)
  | .package (.constraint k term call) =>
    call.set?.map fun s => (.domainConstraint k term s.1, s.2)
  | _ => none

namespace Request

/-- Whether a request sets anything. -/
def isSetter : Request → Bool
  | .oneShot o => o.set?.isSome
  | .call _ what => what.set?.isSome
  | _ => false

/-- Whether a request is a change from outside, and so none of a power capping
tree. -/
def outside : Request → Bool
  | .edit _ => true
  | _ => false

end Request

namespace Handle

/-- The slot of a handle under a key. -/
def slot : Handle → SlotKey → Slot
  | .controlType c, .controlType => c.enabledSlot
  | .zone z, .zone attr => z.slot attr
  | .constraint c, .constraint attr => c.slot attr
  | .package p, .domainZone k attr =>
    match p.zone k with
    | .ok z => z.slot attr
    | .error _ => .absent
  | .package p, .domainConstraint k term attr =>
    match p.constraint k term with
    | .ok c => c.slot attr
    | .error _ => .absent
  | _, _ => .absent

/-- Whether a handle is of the kind that has a slot under a key. -/
def takes : Handle → SlotKey → Bool
  | .controlType _, .controlType => true
  | .zone _, .zone _ => true
  | .constraint _, .constraint _ => true
  | .package _, .domainZone _ _ => true
  | .package _, .domainConstraint _ _ _ => true
  | _, _ => false

end Handle

/-! ## One-shot access -/

theorem OneShot.act_of_set? (t : Tree) {o : OneShot} {a : Address} {attr : Attribute} {v : UInt64}
    (h : o.set? = some (a, attr, v)) : o.act t = Reply.after (t.writeNumber a attr v) := by
  cases o <;> cases h <;> rfl

/-- One-shot access that sets nothing leaves the files. -/
theorem OneShot.still_of_set? (t : Tree) {o : OneShot} (h : o.set? = none) : (o.act t).Still := by
  have hnumber (a : Address) (attr : Attribute) : (t.readNumber a attr).Still :=
    (t.silent_readNumber a attr).still
  have hname (a : Address) (attr : Attribute) : (t.readName a attr).Still :=
    (t.silent_readName a attr).still
  cases o with
  | readNumber a attr => exact (hnumber a attr).map _
  | controlTypeEnabled controlType => exact ((hnumber _ _).map _).map _
  | zoneName a => exact (hname a _).map _
  | zoneEnabled a => exact ((hnumber a _).map _).map _
  | constraintName a number => exact (hname a _).map _
  | packageCount => exact t.still_packageCount.map _
  | raplEnabled => exact ((hnumber _ _).map _).map _
  | _ => cases h

/-! ## Calls -/

namespace ControlTypeCall

variable {call : ControlTypeCall} (c : ControlType)

theorem act_of_set? {v : UInt64} (h : call.set? = some v) :
    call.act c = Reply.after (c.enabledSlot.writeNumber v) := by
  cases call <;> cases h
  rfl

theorem silent_of_set? (h : call.set? = none) : (call.act c).Silent := by
  cases call with
  | name => exact silent_pure _
  | enabled => exact (c.enabledSlot.silent_readNumber.map _).map _
  | setEnabled on => cases h

end ControlTypeCall

namespace ZoneCall

variable {call : ZoneCall} (z : Zone)

theorem act_of_set? {attr : ZoneAttribute} {v : UInt64} (h : call.set? = some (attr, v)) :
    call.act z = Reply.after ((z.slot attr).writeNumber v) := by
  cases call <;> cases h <;> rfl

theorem silent_of_set? (h : call.set? = none) : (call.act z).Silent := by
  cases call with
  | resetEnergy | setEnabled on => cases h
  | enabled => exact ((z.slot .enabled).silent_readNumber.map _).map _
  | name => exact (z.slot .name).silent_readName.map _
  | _ => exact (Slot.silent_readNumber _).map _

end ZoneCall

namespace ConstraintCall

variable {call : ConstraintCall} (c : Constraint)

theorem act_of_set? {attr : ConstraintAttribute} {v : UInt64} (h : call.set? = some (attr, v)) :
    call.act c = Reply.after ((c.slot attr).writeNumber v) := by
  cases call <;> cases h <;> rfl

theorem silent_of_set? (h : call.set? = none) : (call.act c).Silent := by
  cases call with
  | setPowerLimit v | setTimeWindow v => cases h
  | name => exact (c.slot .name).silent_readName.map _
  | _ => exact (Slot.silent_readNumber _).map _

end ConstraintCall

namespace Package

variable (p : Package) (k : Domain)

/-- A domain that the package does not have supports nothing, so calling it is
like calling an absent slot. -/
theorem withZone_eq {α : Type} (act : Zone → Action α) :
    p.withZone k act = match p.zone k with
      | .ok z => act z
      | .error _ => fail .unsupported := by
  unfold withZone zone domain
  cases p.domains.lookup k with
  | none => rfl
  | some d => exact Action.pure_bind d.zone act

theorem withConstraint_eq {α : Type} (term : Term) (act : Constraint → Action α) :
    p.withConstraint k term act = match p.constraint k term with
      | .ok c => act c
      | .error _ => fail .unsupported := by
  unfold withConstraint constraint domain
  cases p.domains.lookup k with
  | none => rfl
  | some d => exact Action.pure_bind (d.constraint term) act

end Package

namespace Handle

/-- To set through a handle is to write the number to the slot, as far as the
handle is of the kind that has it. -/
theorem call_of_set? (hd : Handle) {what : Call} {key : SlotKey} {v : UInt64}
    (h : what.set? = some (key, v)) :
    hd.call what =
      if hd.takes key then (fun _ => (Reply.done, hd)) <$> (hd.slot key).writeNumber v
      else pure (.noHandle, hd) := by
  -- a setter of a part of the handle answers that it is done, and the handle stays
  have hafter (a : Action Unit) : (do let reply ← Reply.after a; return (reply, hd)) =
      (fun _ => (Reply.done, hd)) <$> a := by
    simp only [Reply.after, bind_pure_comp, ← comp_map]
    rfl
  cases what with
  | controlType call =>
    obtain ⟨v, hcall, heq⟩ := Option.map_eq_some_iff.mp h
    cases heq
    cases hd with
    | controlType c => simp only [Handle.call, call.act_of_set? c hcall]; exact hafter _
    | _ => rfl
  | zone call =>
    obtain ⟨⟨attr, v⟩, hcall, heq⟩ := Option.map_eq_some_iff.mp h
    cases heq
    cases hd with
    | zone z => simp only [Handle.call, call.act_of_set? z hcall]; exact hafter _
    | _ => rfl
  | constraint call =>
    obtain ⟨⟨attr, v⟩, hcall, heq⟩ := Option.map_eq_some_iff.mp h
    cases heq
    cases hd with
    | constraint c => simp only [Handle.call, call.act_of_set? c hcall]; exact hafter _
    | _ => rfl
  | package call =>
    cases call with
    | zone k call =>
      obtain ⟨⟨attr, v⟩, hcall, heq⟩ := Option.map_eq_some_iff.mp h
      cases heq
      cases hd with
      | package p =>
        simp only [Handle.call, PackageCall.act, p.withZone_eq, slot]
        cases p.zone k with
        | error e => rfl
        | ok z => simp only [call.act_of_set? z hcall]; exact hafter _
      | _ => rfl
    | constraint k term call =>
      obtain ⟨⟨attr, v⟩, hcall, heq⟩ := Option.map_eq_some_iff.mp h
      cases heq
      cases hd with
      | package p =>
        simp only [Handle.call, PackageCall.act, p.withConstraint_eq, slot]
        cases p.constraint k term with
        | error e => rfl
        | ok c => simp only [call.act_of_set? c hcall]; exact hafter _
      | _ => rfl
    | _ => cases h
  | close | report => cases h

/-- A call that sets nothing leaves the files, and makes no record. -/
theorem silent_of_set? (hd : Handle) {what : Call} (h : what.set? = none) :
    (hd.call what).Silent := by
  have hanswer {a : Action Reply} (ha : a.Silent) :
      (do let reply ← a; return (reply, hd)).Silent := ha.bind fun _ => silent_pure _
  cases what with
  | close => exact silent_of_closing hd.run_call_close
  | report => exact hanswer hd.silent_report
  | controlType call =>
    have hcall := Option.map_eq_none_iff.mp h
    cases hd with
    | controlType c => exact hanswer (call.silent_of_set? c hcall)
    | _ => exact silent_pure _
  | zone call =>
    have hcall := Option.map_eq_none_iff.mp h
    cases hd with
    | zone z => exact hanswer (call.silent_of_set? z hcall)
    | _ => exact silent_pure _
  | constraint call =>
    have hcall := Option.map_eq_none_iff.mp h
    cases hd with
    | constraint c => exact hanswer (call.silent_of_set? c hcall)
    | _ => exact silent_pure _
  | package call =>
    cases hd with
    | package p =>
      refine hanswer ?_
      cases call with
      | zone k call =>
        have hcall := Option.map_eq_none_iff.mp h
        exact (silent_ofExcept _).bind fun z => call.silent_of_set? z hcall
      | constraint k term call =>
        have hcall := Option.map_eq_none_iff.mp h
        exact (silent_ofExcept _).bind fun c => call.silent_of_set? c hcall
      | constraintNumber k term => exact (silent_ofExcept _).map _
      | _ => exact silent_pure _
    | _ => exact silent_pure _

end Handle

end PowerZones
