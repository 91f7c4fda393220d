import PowerZones.Proofs.Session.Setters

/-!
# Getters

Every call that reads reads one slot, and every question whether something is
supported is whether one slot is open. Which slot it is can be told from the call.

* **`Call.get?`** is the slot that a call reads, and the way in which it reads it;
  **`Call.supports?`** is the slot that a call asks for;
* **`Call.kinds`**: other calls, apart from setters, are about no slot;
* **`Handle.call_of_get?`**, **`Handle.call_of_supports?`** are the equations, beside
  `Handle.call_of_set?` for setters;
* **`Handle.call_absent`**: a slot that is absent is neither read nor set.
-/

namespace PowerZones

open PowerZones.Action

/-- How a slot is read. -/
inductive Reading where
  | number
  /-- As a switch, which is on unless the number is zero. -/
  | switch
  | name
  deriving DecidableEq, Repr

/-- Reads a slot in some way. -/
def Slot.answer (slot : Slot) : Reading → Action Reply
  | .number => Reply.number <$> slot.readNumber
  | .switch => (fun v => Reply.flag (switchedOn v)) <$> slot.readNumber
  | .name => Reply.text <$> slot.readName

theorem Slot.answer_absent (reading : Reading) :
    Slot.absent.answer reading = fail .unsupported := by
  cases reading <;> rfl

/-! ## What is read -/

/-- How a call reads the switch of a control type. -/
def ControlTypeCall.get? : ControlTypeCall → Option Reading
  | .enabled => some .switch
  | _ => none

/-- The attribute of a zone that a call reads. -/
def ZoneCall.get? : ZoneCall → Option (ZoneAttribute × Reading)
  | .maxEnergyRange => some (.maxEnergyRange, .number)
  | .energy => some (.energy, .number)
  | .maxPowerRange => some (.maxPowerRange, .number)
  | .power => some (.power, .number)
  | .enabled => some (.enabled, .switch)
  | .name => some (.name, .name)
  | .read attr => some (attr, .number)
  | .resetEnergy | .setEnabled _ => none

/-- The attribute of a constraint that a call reads. -/
def ConstraintCall.get? : ConstraintCall → Option (ConstraintAttribute × Reading)
  | .powerLimit => some (.powerLimit, .number)
  | .timeWindow => some (.timeWindow, .number)
  | .maxPower => some (.maxPower, .number)
  | .minPower => some (.minPower, .number)
  | .maxTimeWindow => some (.maxTimeWindow, .number)
  | .minTimeWindow => some (.minTimeWindow, .number)
  | .name => some (.name, .name)
  | .read attr => some (attr, .number)
  | .setPowerLimit _ | .setTimeWindow _ => none

/-- The slot that a call reads, and how. -/
def Call.get? : Call → Option (SlotKey × Reading)
  | .controlType call => call.get?.map fun reading => (.controlType, reading)
  | .zone call => call.get?.map fun g => (.zone g.1, g.2)
  | .constraint call => call.get?.map fun g => (.constraint g.1, g.2)
  | .package (.zone k call) => call.get?.map fun g => (.domainZone k g.1, g.2)
  | .package (.constraint k term call) =>
    call.get?.map fun g => (.domainConstraint k term g.1, g.2)
  | _ => none

/-- The slot that a call reads or sets. -/
def Call.slot? (what : Call) : Option SlotKey :=
  (what.get?.map Prod.fst).or (what.set?.map Prod.fst)

/-- The slot of which a call asks whether it is supported. A domain and a term are
where there is a power limit, that of a domain being its long term one. -/
def Call.supports? : Call → Option SlotKey
  | .package (.domainSupported k) => some (.domainConstraint k .long .powerLimit)
  | .package (.termSupported k term) => some (.domainConstraint k term .powerLimit)
  | .package (.zoneSupports k attr) => some (.domainZone k attr)
  | .package (.constraintSupports k term attr) => some (.domainConstraint k term attr)
  | _ => none

theorem ControlTypeCall.act_of_get? {call : ControlTypeCall} (c : ControlType) {reading : Reading}
    (h : call.get? = some reading) : call.act c = c.enabledSlot.answer reading := by
  cases call <;> cases h
  -- to read a switch and word the answer is one step or two
  simp only [act, ControlType.enabled, Slot.answer, ← comp_map]
  rfl

theorem ZoneCall.act_of_get? {call : ZoneCall} (z : Zone) {attr : ZoneAttribute}
    {reading : Reading} (h : call.get? = some (attr, reading)) :
    call.act z = (z.slot attr).answer reading := by
  cases call with
  | enabled =>
    cases h
    simp only [act, Zone.enabled, Zone.read, Slot.answer, ← comp_map]
    rfl
  | _ => cases h <;> rfl

theorem ConstraintCall.act_of_get? {call : ConstraintCall} (c : Constraint)
    {attr : ConstraintAttribute} {reading : Reading} (h : call.get? = some (attr, reading)) :
    call.act c = (c.slot attr).answer reading := by
  cases call <;> cases h <;> rfl

/-- What a zone is asked sets a slot or reads one, and so with a constraint. -/
theorem ZoneCall.get?_ne_none {call : ZoneCall} (h : call.set? = none) : call.get? ≠ none := by
  cases call with
  | resetEnergy | setEnabled on => cases h
  | _ => simp [get?]

theorem ConstraintCall.get?_ne_none {call : ConstraintCall} (h : call.set? = none) :
    call.get? ≠ none := by
  cases call with
  | setPowerLimit v | setTimeWindow v => cases h
  | _ => simp [get?]

/-- A call that is about no slot of its own: it closes or reports the handle, or asks
for something that the handle knows by itself. -/
inductive Call.Plain : Call → Prop
  | close : Plain .close
  | report : Plain .report
  | name : Plain (.controlType .name)
  | id : Plain (.package .id)
  | domainSet : Plain (.package .domainSet)
  | constraintNumber (k : Domain) (term : Term) : Plain (.package (.constraintNumber k term))

/-- A call sets a slot, reads one, asks whether one is supported, or is about none. -/
theorem Call.kinds (what : Call) :
    (∃ key v, what.set? = some (key, v)) ∨ (∃ key reading, what.get? = some (key, reading)) ∨
      (∃ key, what.supports? = some key) ∨ what.Plain := by
  cases hset : what.set? with
  | some set => exact .inl ⟨set.1, set.2, rfl⟩
  | none =>
    cases hget : what.get? with
    | some get => exact .inr (.inl ⟨get.1, get.2, rfl⟩)
    | none =>
      refine .inr (.inr ?_)
      cases what with
      | close => exact .inr .close
      | report => exact .inr .report
      | controlType call =>
        cases call with
        | name => exact .inr .name
        | enabled => cases hget
        | setEnabled on => cases hset
      | zone call =>
        have hnone := ZoneCall.get?_ne_none (Option.map_eq_none_iff.mp hset)
        exact absurd (Option.map_eq_none_iff.mp hget) hnone
      | constraint call =>
        have hnone := ConstraintCall.get?_ne_none (Option.map_eq_none_iff.mp hset)
        exact absurd (Option.map_eq_none_iff.mp hget) hnone
      | package call =>
        cases call with
        | id => exact .inr .id
        | domainSet => exact .inr .domainSet
        | constraintNumber k term => exact .inr (.constraintNumber k term)
        | zone k call =>
          have hnone := ZoneCall.get?_ne_none (Option.map_eq_none_iff.mp hset)
          exact absurd (Option.map_eq_none_iff.mp hget) hnone
        | constraint k term call =>
          have hnone := ConstraintCall.get?_ne_none (Option.map_eq_none_iff.mp hset)
          exact absurd (Option.map_eq_none_iff.mp hget) hnone
        | _ => exact .inl ⟨_, rfl⟩

/-! ## Calls on handles -/

namespace Handle

variable {hd : Handle} {what : Call} {key : SlotKey} {reading : Reading}

/-- To read through a handle is to read the slot, as far as the handle is of the
kind that has it. -/
theorem call_of_get? (hd : Handle) (h : what.get? = some (key, reading)) :
    hd.call what =
      if hd.takes key then (fun reply => (reply, hd)) <$> (hd.slot key).answer reading
      else pure (.noHandle, hd) := by
  -- the answer of a part of the handle is the answer of the handle, which stays
  have hreturn (a : Action Reply) : (do let reply ← a; return (reply, hd)) =
      (fun reply => (reply, hd)) <$> a := bind_pure_comp ..
  -- a domain that the package lacks is like an absent slot
  have habsent : (do let reply ← (fail .unsupported : Action Reply); return (reply, hd)) =
      (fun reply => (reply, hd)) <$> Slot.absent.answer reading := by
    rw [Slot.answer_absent]
    exact hreturn _
  cases what with
  | controlType call =>
    obtain ⟨reading, hcall, heq⟩ := Option.map_eq_some_iff.mp h
    cases heq
    cases hd with
    | controlType c => simp only [Handle.call, call.act_of_get? c hcall]; exact hreturn _
    | _ => rfl
  | zone call =>
    obtain ⟨⟨attr, reading⟩, hcall, heq⟩ := Option.map_eq_some_iff.mp h
    cases heq
    cases hd with
    | zone z => simp only [Handle.call, call.act_of_get? z hcall]; exact hreturn _
    | _ => rfl
  | constraint call =>
    obtain ⟨⟨attr, reading⟩, hcall, heq⟩ := Option.map_eq_some_iff.mp h
    cases heq
    cases hd with
    | constraint c => simp only [Handle.call, call.act_of_get? c hcall]; exact hreturn _
    | _ => rfl
  | package call =>
    cases call with
    | zone k call =>
      obtain ⟨⟨attr, reading⟩, hcall, heq⟩ := Option.map_eq_some_iff.mp h
      cases heq
      cases hd with
      | package p =>
        simp only [Handle.call, PackageCall.act, p.withZone_eq, slot]
        cases p.zone k with
        | error e => exact habsent
        | ok z => simp only [call.act_of_get? z hcall]; exact hreturn _
      | _ => rfl
    | constraint k term call =>
      obtain ⟨⟨attr, reading⟩, hcall, heq⟩ := Option.map_eq_some_iff.mp h
      cases heq
      cases hd with
      | package p =>
        simp only [Handle.call, PackageCall.act, p.withConstraint_eq, slot]
        cases p.constraint k term with
        | error e => exact habsent
        | ok c => simp only [call.act_of_get? c hcall]; exact hreturn _
      | _ => rfl
    | _ => cases h
  | close | report => cases h

/-- What is supported are the slots that are open. -/
theorem call_of_supports? (hd : Handle) (h : what.supports? = some key) :
    hd.call what =
      pure (if hd.takes key then .flag (hd.slot key).isOpen else .noHandle, hd) := by
  have hzone (p : Package) (k : Domain) (attr : ZoneAttribute) :
      p.zoneSupports k attr = ((Handle.package p).slot (.domainZone k attr)).isOpen := by
    simp only [Package.zoneSupports, slot]
    cases p.zone k <;> rfl
  have hconstraint (p : Package) (k : Domain) (term : Term) (attr : ConstraintAttribute) :
      p.constraintSupports k term attr =
        ((Handle.package p).slot (.domainConstraint k term attr)).isOpen := by
    simp only [Package.constraintSupports, slot]
    cases p.constraint k term <;> rfl
  cases what with
  | package call =>
    cases hd with
    | package p =>
      cases call with
      | domainSupported k => cases h; rw [← hconstraint]; rfl
      | termSupported k term => cases h; rw [← hconstraint]; rfl
      | zoneSupports k attr => cases h; rw [← hzone]; rfl
      | constraintSupports k term attr => cases h; rw [← hconstraint]; rfl
      | _ => cases h
    | _ => cases call <;> cases h <;> rfl
  | _ => cases h

/-- A slot that is absent is not supported, whether it is to be read or set, and
nothing is done. -/
theorem call_absent (h : what.slot? = some key) (htakes : hd.takes key = true)
    (habsent : hd.slot key = .absent) (host : Host) :
    (hd.call what).run host = ⟨.error .unsupported, host, []⟩ := by
  unfold Call.slot? at h
  cases hget : what.get? with
  | some get =>
    obtain ⟨key', reading⟩ := get
    have hkey : key' = key := by simpa [hget] using h
    subst hkey
    rw [hd.call_of_get? hget, if_pos htakes, habsent, Slot.answer_absent]
    rfl
  | none =>
    rw [hget, Option.map_none, Option.none_or] at h
    obtain ⟨⟨key', v⟩, hset, rfl⟩ := Option.map_eq_some_iff.mp h
    rw [hd.call_of_set? hset, if_pos htakes, habsent]
    rfl

end Handle

end PowerZones
