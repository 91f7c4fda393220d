import PowerZones.Proofs.Action.Ownership
import PowerZones.Proofs.Entity.Closing

/-!
# What handles own

Every opening gains the descriptors of the handle it gives, and nothing at all
if it fails, wherever it fails. Everything else that is done with a handle, and
every one-shot access, keeps the descriptors as they are.

* **`trades_open…`**, for each kind of handle: opening gains its descriptors;
* **`keeps_…`**: one-shot access, calls and reports keep the descriptors;
* **`Action.trades_of_closing`**: closing gives them back.
-/

namespace PowerZones

open PowerZones.Action

/-! ## Giving back -/

/-- After some owned descriptors were closed, the others are owned. -/
theorem Host.Owns.closing {host : Host} {ids more : List DescriptorId}
    {frame : List (DescriptorId × OpenFile)} (h : host.Owns (ids ++ more) frame) :
    (host.closing ids).Owns more frame := by
  induction ids generalizing host with
  | nil => exact h
  | cons id rest ih => exact ih h.erase

/-- What closes some descriptors, and does nothing else, gives them back. -/
theorem Action.trades_of_closing {α : Type} {a : Action α} {x : α} {ids : List DescriptorId}
    (h : ∀ host, a.run host = ⟨.ok x, host.closing ids, []⟩) (more failed : List DescriptorId) :
    a.Trades (ids ++ more) (fun _ => more) failed := by
  intro host frame howns
  rw [h host]
  exact howns.closing

theorem Action.trades_of_closing_all {α : Type} {a : Action α} {x : α} {ids : List DescriptorId}
    (h : ∀ host, a.run host = ⟨.ok x, host.closing ids, []⟩) (failed : List DescriptorId) :
    a.Trades ids (fun _ => []) failed := by
  simpa using trades_of_closing h [] failed

/-! ## One-shot access -/

theorem keeps_withFile {α : Type} (path : String) (access : Access)
    {use : DescriptorId → Action α} (h : ∀ id, (use id).Keeps) :
    (withFile path access use).Keeps := by
  intro ids
  refine (keeps_query _).bind fun node => ?_
  have hopen : (openNode node access).Trades ids (fun id => id :: ids) ids := by
    have hnew : (openNode node access).Trades [] (fun id => [id]) [] := trades_openNode node access
    simpa using hnew.frame ids
  exact hopen.bind fun id => Trades.thenAlways (h id _) (trades_close id ids)

namespace Tree

variable (t : Tree)

theorem keeps_readNumber (a : Address) (attr : Attribute) : (t.readNumber a attr).Keeps :=
  (keeps_ofExcept _).bind_keeps fun _ => keeps_withFile _ _ Action.keeps_readNumber

theorem keeps_readName (a : Address) (attr : Attribute) : (t.readName a attr).Keeps :=
  (keeps_ofExcept _).bind_keeps fun _ => keeps_withFile _ _ fun id => keeps_readText id _

theorem keeps_writeNumber (a : Address) (attr : Attribute) (v : UInt64) :
    (t.writeNumber a attr v).Keeps := by
  unfold writeNumber
  split
  · exact (keeps_ofExcept _).bind_keeps fun _ =>
      keeps_withFile _ _ fun id => Action.keeps_writeNumber id v
  · exact keeps_fail _

end Tree

/-! ## Slots -/

theorem Tree.trades_openSlot (t : Tree) (a : Address) (attr : Attribute) (write : Bool) :
    (t.openSlot a attr write).Trades [] (fun slot => slot.descriptor?.toList) [] := by
  refine (keeps_ofExcept _).bind fun path => ?_
  refine (keeps_query _).bind fun verdict => ?_
  cases verdict with
  | missing => exact (keeps_note _ _ _).bind fun _ => trades_pure _ (.refl _)
  | granted node access grant =>
    exact (trades_openNode node access).bind fun id => trades_pure _ (.refl _)
  | refused retried why => exact (keeps_note _ _ _).bind fun _ => trades_fail _

namespace Slot

theorem keeps_readNumber (slot : Slot) : slot.readNumber.Keeps := by
  cases slot with
  | absent => exact keeps_fail _
  | opened id path grant => exact Action.keeps_readNumber id

theorem keeps_readName (slot : Slot) : slot.readName.Keeps := by
  cases slot with
  | absent => exact keeps_fail _
  | opened id path grant => exact keeps_readText id _

theorem keeps_writeNumber (v : UInt64) (slot : Slot) : (slot.writeNumber v).Keeps := by
  cases slot with
  | absent => exact keeps_fail _
  | opened id path grant =>
    simp only [writeNumber]
    split
    · exact Action.keeps_writeNumber id v
    · exact keeps_fail _

end Slot

namespace Slots

variable {α : Type}

/-- A table is opened slot by slot; when one fails, those before it were closed
on the way out. -/
theorem trades_openAll {openOne : α → Action Slot}
    (h : ∀ a, (openOne a).Trades [] (fun slot => slot.descriptor?.toList) []) (as : List α) :
    (openAll openOne as).Trades [] (fun slots => slots.descriptors) [] := by
  induction as with
  | nil => exact trades_pure _ (.refl _)
  | cons a rest ih =>
    refine (h a).bind fun slot => ?_
    have hclose : slot.close.Trades slot.descriptor?.toList (fun _ => []) [] :=
      trades_of_closing_all slot.run_close []
    have hrest : ((openAll openOne rest).onFailure slot.close).Trades slot.descriptor?.toList
        (fun slots => descriptors slots ++ slot.descriptor?.toList) [] :=
      Trades.onFailure (ih.frame _) hclose
    exact hrest.bind fun slots => trades_pure _ (by simpa using List.perm_append_comm)

theorem keeps_report (name : α → String) (slots : Slots α) : (slots.report name).Keeps := by
  induction slots with
  | nil => exact keeps_pure _
  | cons s rest ih =>
    exact s.2.keeps_readNumber.attempt.bind_keeps fun _ => ih.bind_keeps fun _ => keeps_pure _

end Slots

/-! ## Handles -/

namespace Tree

variable (t : Tree)

theorem trades_openControlType (name : String) (readOnly : Bool) :
    (t.openControlType name readOnly).Trades [] ControlType.descriptors [] :=
  (t.trades_openSlot _ _ _).bind fun _ => trades_pure _ (.refl _)

theorem trades_openZone (a : Address) (readOnly : Bool) :
    (t.openZone a readOnly).Trades [] Zone.descriptors [] :=
  (Slots.trades_openAll (fun _ => t.trades_openSlot _ _ _) _).bind fun _ => trades_pure _ (.refl _)

theorem trades_openConstraint (a : Address) (number : UInt32) (readOnly : Bool) :
    (t.openConstraint a number readOnly).Trades [] Constraint.descriptors [] :=
  (Slots.trades_openAll (fun _ => t.trades_openSlot _ _ _) _).bind fun _ => trades_pure _ (.refl _)

end Tree

/-! ## Domains and packages -/

theorem Constraint.trades_misnamed (c : Constraint) (term : Term)
    (ids failed : List DescriptorId) : (c.misnamed term).Trades ids (fun _ => ids) failed := by
  refine (c.slot .name).keeps_readName.trades_attempt.bind fun name => ?_
  cases name with
  | ok name => exact trades_pure _ (.refl _)
  | error e => exact trades_pure _ (.refl _)

/-- Constraints taken the other way round own what they owned. -/
theorem PowerDomain.perm_descriptors_swap (d : PowerDomain) :
    d.descriptors.Perm d.swap.descriptors := by
  simp only [descriptors, swap, List.append_assoc]
  exact List.perm_append_comm.append_left _

/-- Putting the constraints in order never fails. -/
theorem PowerDomain.trades_order (logger : Logger) (a : Address) (d : PowerDomain)
    (failed : List DescriptorId) :
    (PowerDomain.order logger a d).Trades d.descriptors PowerDomain.descriptors failed := by
  refine (d.longTerm.trades_misnamed _ _ _).bind fun long => ?_
  refine (d.shortTerm.trades_misnamed _ _ _).bind fun short => ?_
  split
  · exact (trades_note _ _ _).bind fun _ => trades_pure _ d.perm_descriptors_swap
  · exact trades_pure _ (.refl _)

theorem Tree.trades_openDomain (t : Tree) (zones : List UInt32) (readOnly : Bool) :
    (t.openDomain zones readOnly).Trades [] PowerDomain.descriptors [] := by
  have hopen (term : Term) (ids : List DescriptorId) :
      (t.openConstraint (raplAddress zones) term.number readOnly).Trades ids
        (fun c => ids ++ c.descriptors) ids := by
    have h := (t.trades_openConstraint (raplAddress zones) term.number readOnly).frame ids
    exact h.perm (.refl _) (fun _ => List.perm_append_comm) (.refl _)
  refine (t.trades_openZone _ readOnly).bind fun zone => ?_
  have hzone : zone.slots.closeAll.Trades zone.descriptors (fun _ => []) [] :=
    trades_of_closing_all zone.slots.run_closeAll []
  refine Trades.bind ((hopen .long _).onFailure hzone) fun longTerm => ?_
  have hboth : (do zone.slots.closeAll; longTerm.slots.closeAll : Action Unit).Trades
      (zone.descriptors ++ longTerm.descriptors) (fun _ => []) [] :=
    (trades_of_closing zone.slots.run_closeAll _ []).bind fun _ =>
      trades_of_closing_all longTerm.slots.run_closeAll []
  refine Trades.bind ((hopen .short _).onFailure hboth) fun shortTerm => ?_
  exact PowerDomain.trades_order t.logger _ ⟨zone, longTerm, shortTerm⟩ []

/-- The descriptors that some domains keep open. -/
def domainDescriptors (domains : List (Domain × PowerDomain)) : List DescriptorId :=
  domains.flatMap fun d => d.2.descriptors

theorem Tree.keeps_identify (t : Tree) (zones : List UInt32) : (t.identify zones).Keeps := by
  refine (t.keeps_readName _ _).bind_keeps fun name => ?_
  split
  · exact keeps_pure _
  · exact (keeps_note _ _ _).bind_keeps fun _ => keeps_fail _

theorem Tree.trades_openSubzone (t : Tree) (id : UInt32) (readOnly : Bool)
    (met : List (Domain × PowerDomain)) (index : UInt32) :
    (t.openSubzone id readOnly met index).Trades (domainDescriptors met)
      (fun opened => domainDescriptors (met ++ [opened])) (domainDescriptors met) := by
  refine (t.keeps_identify _).bind fun domain => ?_
  split
  · exact (keeps_note _ _ _).bind fun _ => trades_fail _
  · have hopen := (t.trades_openDomain [id, index] readOnly).frame (domainDescriptors met)
    refine hopen.bind fun opened => trades_pure _ ?_
    simpa [domainDescriptors] using List.perm_append_comm

/-- The zones below a package are opened one by one; when one fails, all that
were met before are closed. -/
theorem Tree.trades_openSubzones (t : Tree) (id : UInt32) (readOnly : Bool)
    (met : List (Domain × PowerDomain)) (indices : List UInt32) :
    (t.openSubzones id readOnly met indices).Trades (domainDescriptors met) domainDescriptors
      [] := by
  induction indices generalizing met with
  | nil => exact trades_pure _ (.refl _)
  | cons index rest ih =>
    have hclose : (closeDomains met).Trades (domainDescriptors met) (fun _ => []) [] :=
      trades_of_closing_all (run_closeDomains met) []
    rw [t.openSubzones_cons]
    exact ((t.trades_openSubzone id readOnly met index).onFailure hclose).bind fun opened => ih _

theorem Tree.trades_openPackage (t : Tree) (id : UInt32) (readOnly : Bool) :
    (t.openPackage id readOnly).Trades [] Package.descriptors [] := by
  refine (t.keeps_identify _).bind fun domain => ?_
  refine (t.trades_openDomain _ readOnly).bind fun opened => ?_
  have hone : domainDescriptors [(domain, opened)] = opened.descriptors := by
    simp [domainDescriptors]
  have hclose : (closeDomains [(domain, opened)]).Trades opened.descriptors (fun _ => []) [] :=
    hone ▸ trades_of_closing_all (run_closeDomains [(domain, opened)]) []
  refine Trades.bind ((keeps_query _ _).onFailure hclose) fun count => ?_
  refine Trades.bind ?_ fun domains => trades_pure _ (.refl _)
  exact hone ▸ t.trades_openSubzones id readOnly [(domain, opened)] (indicesBelow count)

end PowerZones
