import PowerZones.Proofs.Entity.Survey

/-!
# Descriptors opened on the way

A host never gives a number out twice, so the next number tells how many descriptors
were opened so far, whether they are still open or not.

* **`Host.everOpened`** is that number;
* **`Action.Opens`**: an action that has a result has opened so many descriptors; what
  was opened before is counted in, so that counts add up along a sequence;
* one rule for each way of putting actions together;
* what opening handles comes to: one descriptor for each open slot, and one for a name
  that is read on the way.
-/

namespace PowerZones

open PowerZones.Action

/-- How many descriptors were ever opened on a host. -/
def Host.everOpened (host : Host) : Nat :=
  host.descriptors.next

@[simp] theorem Host.everOpened_opening (host : Host) (node : NodeId) (access : Access) :
    (host.opening node access).everOpened = host.everOpened + 1 := rfl

/-- Closing descriptors does not undo that they were opened. -/
@[simp] theorem Host.everOpened_closing (host : Host) (ids : List DescriptorId) :
    (host.closing ids).everOpened = host.everOpened := by
  have hnext (ds : Descriptors) : (ids.foldl Descriptors.erase ds).next = ds.next := by
    induction ids generalizing ds with
    | nil => rfl
    | cons id rest ih => exact ih (ds.erase id)
  exact hnext host.descriptors

namespace Action

variable {α β : Type} {before : Nat}

/-- If an action has a result, then, with those that were opened before, it has opened
so many descriptors. -/
def Opens (before : Nat) (a : Action α) (total : α → Nat) : Prop :=
  ∀ host x, (a.run host).result = .ok x →
    (a.run host).host.everOpened + before = host.everOpened + total x

theorem Opens.everOpened_eq {a : Action α} {total : α → Nat} {host next : Host} {x : α}
    {records : List Record} (h : a.Opens 0 total) (hrun : a.run host = ⟨.ok x, next, records⟩) :
    next.everOpened = host.everOpened + total x := by
  have hx := h host x
  rw [hrun] at hx
  exact hx rfl

/-- What gives no number out opens nothing. -/
theorem opens_of_eq {a : Action α} (h : ∀ host, (a.run host).host.everOpened = host.everOpened) :
    a.Opens before fun _ => before := by
  intro host x _
  rw [h]

theorem opens_pure {x : α} {total : α → Nat} (h : total x = before) :
    (pure x : Action α).Opens before total := by
  intro host y hy
  cases hy
  rw [run_pure, h]

theorem opens_fail (e : Failure) {total : α → Nat} : (fail e : Action α).Opens before total :=
  fun _ _ h => nomatch h

theorem opens_openNode (node : NodeId) (access : Access) :
    (openNode node access).Opens before fun _ => before + 1 := by
  intro host x _
  show host.everOpened + 1 + before = host.everOpened + (before + 1)
  omega

theorem Opens.bind {a : Action α} {f : α → Action β} {first : α → Nat} {total : β → Nat}
    (ha : a.Opens before first) (hf : ∀ x, (f x).Opens (first x) total) :
    (a >>= f).Opens before total := by
  intro host y hy
  have hfirst := ha host
  rw [run_bind] at hy ⊢
  rcases hrun : a.run host with ⟨_ | x, next, records⟩
  · rw [hrun] at hy
    cases hy
  · rw [hrun] at hy hfirst
    have hx : next.everOpened + before = host.everOpened + first x := hfirst x rfl
    have hrest := hf x next y hy
    simp only
    omega

theorem Opens.onFailure {a : Action α} {cleanup : Action Unit} {total : α → Nat}
    (ha : a.Opens before total) : (a.onFailure cleanup).Opens before total := by
  intro host x hx
  have hfirst := ha host
  rcases hrun : a.run host with ⟨_ | y, next, records⟩
  · simp only [Action.onFailure, hrun] at hx
    cases hx
  · rw [hrun] at hfirst
    simp only [Action.onFailure, hrun] at hx ⊢
    exact hfirst x hx

/-- Using a path once takes one descriptor, whatever is done with it. -/
theorem opens_withFile {path : String} {access : Access} {use : DescriptorId → Action α}
    (huse : ∀ id host, ((use id).run host).host.everOpened = host.everOpened) :
    (withFile path access use).Opens before fun _ => before + 1 := by
  intro host x hx
  rw [run_withFile] at hx ⊢
  cases hnode : host.files.nodeFor path access with
  | error e =>
    rw [hnode] at hx
    cases hx
  | ok node =>
    simp only [Host.everOpened_closing, huse, Host.everOpened_opening]
    omega

end Action

namespace Tree

variable (t : Tree) (a : Address) (readOnly : Bool) {before : Nat}

theorem opens_openSlot (attr : Attribute) (write : Bool) :
    (t.openSlot a attr write).Opens before fun slot => before + slot.descriptor?.toList.length := by
  refine (opens_of_eq fun host => by rw [run_ofExcept]).bind fun path => ?_
  refine (opens_of_eq fun host => by rw [run_query]).bind fun verdict => ?_
  cases verdict with
  | missing => exact (opens_of_eq fun _ => rfl).bind fun _ => opens_pure rfl
  | granted node access grant => exact (opens_openNode node access).bind fun _ => opens_pure rfl
  | refused retried why => exact (opens_of_eq fun _ => rfl).bind fun _ => opens_fail _

theorem opens_openAll {α : Type} {openOne : α → Action Slot}
    (h : ∀ x before, (openOne x).Opens before fun slot => before + slot.descriptor?.toList.length)
    (as : List α) :
    (Slots.openAll openOne as).Opens before fun slots => before + slots.descriptors.length := by
  induction as generalizing before with
  | nil => exact opens_pure rfl
  | cons x rest ih =>
    refine (h x _).bind fun slot => ih.onFailure.bind fun slots => opens_pure ?_
    rw [Slots.descriptors_cons, List.length_append, Nat.add_assoc]

theorem opens_openZone :
    (t.openZone a readOnly).Opens before fun z => before + z.descriptors.length :=
  (opens_openAll (fun _ _ => t.opens_openSlot a _ _) _).bind fun _ => opens_pure rfl

theorem opens_openConstraint (number : UInt32) :
    (t.openConstraint a number readOnly).Opens before fun c => before + c.descriptors.length :=
  (opens_openAll (fun _ _ => t.opens_openSlot a _ _) _).bind fun _ => opens_pure rfl

theorem opens_readName (attr : Attribute) :
    (t.readName a attr).Opens before fun _ => before + 1 := by
  refine (opens_of_eq fun host => by rw [run_ofExcept]).bind fun path => opens_withFile ?_
  intro id host
  have hsize : Field.nameSize ≠ 0 := by decide
  simp only [Action.readText, if_neg hsize, run_observe]

/-- Telling a domain takes the reading of a name. -/
theorem opens_identify (zones : List UInt32) :
    (t.identify zones).Opens before fun _ => before + 1 := by
  refine (t.opens_readName _ _).bind fun name => ?_
  cases Domain.classify name with
  | some domain => exact opens_pure rfl
  | none => exact (opens_of_eq fun _ => rfl).bind fun _ => opens_fail _

end Tree

end PowerZones
