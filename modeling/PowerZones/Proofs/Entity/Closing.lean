import PowerZones.Session.Step

/-!
# Closing handles

To close a handle is to close its descriptors, whatever kind of handle it is:
closing never fails, makes no record and touches no file. What is left is the
handle with every slot absent, and closing that does nothing.

* **`Host.closing`** is the host after some descriptors were closed;
* **`Zone.closed`** and its like are the handles that closing leaves;
* **`run_close`**, for each kind of handle, is the whole effect of closing it.
-/

namespace PowerZones

/-- The host after the given descriptors were closed. -/
def Host.closing (host : Host) (ids : List DescriptorId) : Host :=
  { host with descriptors := ids.foldl Descriptors.erase host.descriptors }

@[simp] theorem Host.closing_nil (host : Host) : host.closing [] = host := rfl

@[simp] theorem Host.closing_files (host : Host) (ids : List DescriptorId) :
    (host.closing ids).files = host.files := rfl

/-- Descriptors can be closed in two goes. -/
theorem Host.closing_append (host : Host) (ids more : List DescriptorId) :
    host.closing (ids ++ more) = (host.closing ids).closing more := by
  simp [Host.closing]

/-! ## Slots -/

theorem Slot.run_close (slot : Slot) (host : Host) :
    slot.close.run host = ⟨.ok (), host.closing slot.descriptor?.toList, []⟩ := by
  cases slot <;> rfl

namespace Slots

variable {α : Type}

@[simp] theorem descriptors_cons (s : α × Slot) (rest : Slots α) :
    descriptors (s :: rest) = s.2.descriptor?.toList ++ descriptors rest := by
  cases h : s.2.descriptor? <;> simp [descriptors, h]

@[simp] theorem descriptors_closed (slots : Slots α) : slots.closed.descriptors = [] := by
  induction slots with
  | nil => rfl
  | cons s rest ih =>
    show descriptors ((s.1, .absent) :: closed rest) = []
    rw [descriptors_cons, ih]
    rfl

@[simp] theorem closed_closed (slots : Slots α) : slots.closed.closed = slots.closed := by
  simp [closed]

theorem run_closeAll (slots : Slots α) (host : Host) :
    slots.closeAll.run host = ⟨.ok (), host.closing slots.descriptors, []⟩ := by
  induction slots generalizing host with
  | nil => rfl
  | cons s rest ih =>
    rw [closeAll, Action.run_bind, Slot.run_close]
    simp only [ih, descriptors_cons, Host.closing_append, List.append_nil]

end Slots

/-! ## Handles -/

/-- The control type with its slot absent. -/
def ControlType.closed (c : ControlType) : ControlType :=
  { c with enabledSlot := .absent }

theorem ControlType.run_close (c : ControlType) (host : Host) :
    c.close.run host = ⟨.ok c.closed, host.closing c.descriptors, []⟩ := by
  rw [ControlType.close, Action.run_bind, Slot.run_close]
  rfl

/-- The zone with every slot absent. -/
def Zone.closed (z : Zone) : Zone :=
  { z with slots := z.slots.closed }

theorem Zone.run_close (z : Zone) (host : Host) :
    z.close.run host = ⟨.ok z.closed, host.closing z.descriptors, []⟩ := by
  rw [Zone.close, Action.run_bind, Slots.run_closeAll]
  rfl

/-- The constraint with every slot absent. -/
def Constraint.closed (c : Constraint) : Constraint :=
  { c with slots := c.slots.closed }

theorem Constraint.run_close (c : Constraint) (host : Host) :
    c.close.run host = ⟨.ok c.closed, host.closing c.descriptors, []⟩ := by
  rw [Constraint.close, Action.run_bind, Slots.run_closeAll]
  rfl

/-- The domain with every slot of its zone and its constraints absent. -/
def PowerDomain.closed (d : PowerDomain) : PowerDomain where
  zone := d.zone.closed
  longTerm := d.longTerm.closed
  shortTerm := d.shortTerm.closed

theorem PowerDomain.run_close (d : PowerDomain) (host : Host) :
    d.close.run host = ⟨.ok d.closed, host.closing d.descriptors, []⟩ := by
  simp only [PowerDomain.close, Action.run_bind, Zone.run_close, Constraint.run_close,
    Action.run_pure, PowerDomain.descriptors, Host.closing_append, List.append_nil]
  rfl

theorem PowerDomain.descriptors_closed (d : PowerDomain) : d.closed.descriptors = [] := by
  simp [closed, descriptors, Zone.closed, Zone.descriptors, Constraint.closed,
    Constraint.descriptors]

theorem run_closeDomains (domains : List (Domain × PowerDomain)) (host : Host) :
    (closeDomains domains).run host =
      ⟨.ok (), host.closing (domains.flatMap fun d => d.2.descriptors), []⟩ := by
  induction domains generalizing host with
  | nil => rfl
  | cons d rest ih =>
    simp only [closeDomains, Action.run_bind, PowerDomain.run_close, ih, List.flatMap_cons,
      Host.closing_append, List.append_nil]

/-- One round of opening a package: the zone with an index below it, given the
domains met so far. -/
def Tree.openSubzone (t : Tree) (id : UInt32) (readOnly : Bool) (met : List (Domain × PowerDomain))
    (index : UInt32) : Action (Domain × PowerDomain) := do
  let domain ← t.identify [id, index]
  if (met.lookup domain).isSome then
    Action.note t.logger .error (duplicateText domain id index)
    Action.fail (.duplicateDomain domain id index)
  else
    let opened ← t.openDomain [id, index] readOnly
    return (domain, opened)

/-- The zones below a package are opened round by round, and a round that fails
closes what the rounds before it opened. -/
theorem Tree.openSubzones_cons (t : Tree) (id : UInt32) (readOnly : Bool)
    (met : List (Domain × PowerDomain)) (index : UInt32) (rest : List UInt32) :
    t.openSubzones id readOnly met (index :: rest) =
      (t.openSubzone id readOnly met index).onFailure (closeDomains met) >>= fun opened =>
        t.openSubzones id readOnly (met ++ [opened]) rest := rfl

/-- The package with every slot absent. Its domains stay known. -/
def Package.closed (p : Package) : Package :=
  { p with domains := p.domains.map fun d => (d.1, d.2.closed) }

theorem Package.run_closeEach (domains : List (Domain × PowerDomain)) (host : Host) :
    (Package.closeEach domains).run host =
      ⟨.ok (domains.map fun d => (d.1, d.2.closed)),
        host.closing (domains.flatMap fun d => d.2.descriptors), []⟩ := by
  induction domains generalizing host with
  | nil => rfl
  | cons d rest ih =>
    simp only [Package.closeEach, Action.run_bind, PowerDomain.run_close, ih, Action.run_pure,
      List.flatMap_cons, List.map_cons, Host.closing_append, List.append_nil]

theorem Package.run_close (p : Package) (host : Host) :
    p.close.run host = ⟨.ok p.closed, host.closing p.descriptors, []⟩ := by
  rw [Package.close, Action.run_bind, Package.run_closeEach]
  rfl

namespace Handle

/-- The handle with every slot absent. -/
def closed : Handle → Handle
  | .controlType c => .controlType c.closed
  | .zone z => .zone z.closed
  | .constraint c => .constraint c.closed
  | .package p => .package p.closed

/-- Closing a handle closes its descriptors and does nothing else. -/
theorem run_close (h : Handle) (host : Host) :
    h.close.run host = ⟨.ok h.closed, host.closing h.descriptors, []⟩ := by
  cases h <;>
    simp only [Handle.close, ← bind_pure_comp, Action.run_bind, ControlType.run_close,
      Zone.run_close, Constraint.run_close, Package.run_close, Action.run_pure,
      List.append_nil] <;> rfl

/-- A closed handle keeps nothing open. -/
@[simp] theorem descriptors_closed (h : Handle) : h.closed.descriptors = [] := by
  cases h with
  | controlType c => rfl
  | zone z => exact Slots.descriptors_closed z.slots
  | constraint c => exact Slots.descriptors_closed c.slots
  | package p =>
    refine List.flatMap_eq_nil_iff.mpr fun d hd => ?_
    obtain ⟨before, _, rfl⟩ := List.mem_map.mp hd
    exact before.2.descriptors_closed

/-- Closing again leaves the handle that closing once left. -/
@[simp] theorem closed_closed (h : Handle) : h.closed.closed = h.closed := by
  cases h <;>
    simp [closed, ControlType.closed, Zone.closed, Constraint.closed, Package.closed,
      PowerDomain.closed]

end Handle

/-- Letting go of a name closes the handle under it, if there is one. -/
theorem Handles.run_release (handles : Handles) (name : String) (host : Host) :
    (handles.release name).run host =
      ⟨.ok (), host.closing ((handles.lookup name).elim [] Handle.descriptors), []⟩ := by
  unfold Handles.release
  cases handles.lookup name with
  | none => rfl
  | some h =>
    simp only [← bind_pure_comp, Action.run_bind, Handle.run_close, Action.run_pure,
      List.append_nil, Option.elim]

end PowerZones
