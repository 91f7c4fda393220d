import PowerZones.Proofs.Entity.Ownership
import PowerZones.Proofs.Session.Events
import Mathlib.Algebra.GroupWithZero.Nat

/-!
# No descriptor is lost

In every session, whatever was asked of it and whatever happened around it, the
open descriptors are those of the open slots of its handles: none is forgotten
and none is closed twice.

* **`Session.Accounted`** is the invariant: the handles own all descriptors, and
  each has a name of its own;
* **`Request.trades_act`**: every request hands over the descriptors of the
  handles before it for those of the handles after it;
* **`Session.accounted_after`**: so the invariant holds after all events.
-/

namespace PowerZones

open PowerZones.Action

/-! ## Calls -/

theorem Query.keeps_act (t : Tree) (q : Query) : (q.act t).Keeps := by
  cases q <;> exact Keeps.map _ (by first | exact keeps_ofExcept _ | exact keeps_query _)

theorem Reply.keeps_after {a : Action Unit} (h : a.Keeps) : (Reply.after a).Keeps :=
  h.map _

theorem Tree.keeps_packageCount (t : Tree) : t.packageCount.Keeps := by
  refine (keeps_query _).bind_keeps fun count => ?_
  split
  · exact (keeps_note _ _ _).bind_keeps fun _ => keeps_fail _
  · exact keeps_pure _

theorem OneShot.keeps_act (t : Tree) (o : OneShot) : (o.act t).Keeps := by
  cases o with
  | readNumber a attr => exact (t.keeps_readNumber a attr).map _
  | writeNumber a attr v => exact Reply.keeps_after (t.keeps_writeNumber a attr v)
  | controlTypeEnabled controlType => exact ((t.keeps_readNumber _ _).map _).map _
  | setControlTypeEnabled controlType on => exact Reply.keeps_after (t.keeps_writeNumber _ _ _)
  | zoneName a => exact (t.keeps_readName a _).map _
  | zoneEnabled a => exact ((t.keeps_readNumber a _).map _).map _
  | setZoneEnabled a on => exact Reply.keeps_after (t.keeps_writeNumber a _ _)
  | resetZoneEnergy a => exact Reply.keeps_after (t.keeps_writeNumber a _ _)
  | constraintName a number => exact (t.keeps_readName a _).map _
  | packageCount => exact t.keeps_packageCount.map _
  | raplEnabled => exact ((t.keeps_readNumber _ _).map _).map _
  | setRaplEnabled on =>
    exact Reply.keeps_after
      (t.keeps_writeNumber { controlType := raplControlType } (.controlType .enabled) _)

theorem Opening.trades_act (t : Tree) (what : Opening) :
    (what.act t).Trades [] Handle.descriptors [] := by
  cases what with
  | controlType name readOnly => exact (t.trades_openControlType name readOnly).map fun _ => .refl _
  | zone a readOnly => exact (t.trades_openZone a readOnly).map fun _ => .refl _
  | constraint a number readOnly =>
    exact (t.trades_openConstraint a number readOnly).map fun _ => .refl _
  | package id readOnly => exact (t.trades_openPackage id readOnly).map fun _ => .refl _

theorem ControlTypeCall.keeps_act (c : ControlType) (call : ControlTypeCall) :
    (call.act c).Keeps := by
  cases call with
  | name => exact keeps_pure _
  | enabled => exact (c.enabledSlot.keeps_readNumber.map _).map _
  | setEnabled on => exact Reply.keeps_after (c.enabledSlot.keeps_writeNumber _)

theorem ZoneCall.keeps_act (call : ZoneCall) (z : Zone) : (call.act z).Keeps := by
  cases call with
  | resetEnergy => exact Reply.keeps_after (Slot.keeps_writeNumber _ _)
  | setEnabled on => exact Reply.keeps_after (Slot.keeps_writeNumber _ _)
  | enabled => exact ((Slot.keeps_readNumber _).map _).map _
  | name => exact (Slot.keeps_readName _).map _
  | _ => exact (Slot.keeps_readNumber _).map _

theorem ConstraintCall.keeps_act (call : ConstraintCall) (c : Constraint) :
    (call.act c).Keeps := by
  cases call with
  | setPowerLimit v => exact Reply.keeps_after (Slot.keeps_writeNumber _ _)
  | setTimeWindow v => exact Reply.keeps_after (Slot.keeps_writeNumber _ _)
  | name => exact (Slot.keeps_readName _).map _
  | _ => exact (Slot.keeps_readNumber _).map _

theorem PackageCall.keeps_act (p : Package) (call : PackageCall) : (call.act p).Keeps := by
  cases call with
  | zone k call => exact (keeps_ofExcept _).bind_keeps call.keeps_act
  | constraint k term call => exact (keeps_ofExcept _).bind_keeps call.keeps_act
  | constraintNumber k term => exact (keeps_ofExcept _).map _
  | _ => exact keeps_pure _

/-! ## Reports -/

theorem Zone.keeps_report (z : Zone) : z.report.Keeps :=
  (Slots.keeps_report _ _).bind_keeps fun _ => keeps_pure _

theorem Constraint.keeps_report (c : Constraint) : c.report.Keeps :=
  (Slots.keeps_report _ _).bind_keeps fun _ => keeps_pure _

theorem Package.keeps_reportTerms (p : Package) (k : Domain) (terms : List Term) :
    (p.reportTerms k terms).Keeps := by
  induction terms with
  | nil => exact keeps_pure _
  | cons term rest ih =>
    have hterm : (p.withConstraint k term Constraint.report).Keeps :=
      (keeps_ofExcept _).bind_keeps Constraint.keeps_report
    exact hterm.attempt.bind_keeps fun _ => ih.bind_keeps fun _ => keeps_pure _

theorem Package.keeps_reportDomains (p : Package) (ks : List Domain) :
    (p.reportDomains ks).Keeps := by
  induction ks with
  | nil => exact keeps_pure _
  | cons k rest ih =>
    have hzone : (p.withZone k Zone.report).Keeps :=
      (keeps_ofExcept _).bind_keeps Zone.keeps_report
    exact hzone.attempt.bind_keeps fun _ =>
      (p.keeps_reportTerms k _).bind_keeps fun _ => ih.bind_keeps fun _ => keeps_pure _

namespace Handle

theorem keeps_report (h : Handle) : h.report.Keeps := by
  cases h with
  | controlType c => exact keeps_pure _
  | zone z => exact z.keeps_report.map _
  | constraint c => exact c.keeps_report.map _
  | package p => exact (p.keeps_reportDomains _).map _

/-- The whole effect of a call that closes. -/
theorem run_call_close (h : Handle) (host : Host) :
    (h.call .close).run host = ⟨.ok (.done, h.closed), host.closing h.descriptors, []⟩ := by
  simp only [call, run_bind, run_close, run_pure, List.append_nil]

/-- A call hands the descriptors of a handle over to the handle after it. -/
theorem trades_call (h : Handle) (what : Call) :
    (h.call what).Trades h.descriptors (fun r => r.2.descriptors) h.descriptors := by
  have hsame {a : Action Reply} (ha : a.Keeps) :
      (do let reply ← a; pure (reply, h) : Action (Reply × Handle)).Trades h.descriptors
        (fun r => r.2.descriptors) h.descriptors :=
    ha.bind fun _ => trades_pure _ (.refl _)
  cases what with
  | close =>
    -- the one call that changes the handle
    intro host frame howns
    rw [run_call_close]
    show (host.closing h.descriptors).Owns h.closed.descriptors frame
    rw [h.descriptors_closed]
    rw [← List.append_nil h.descriptors] at howns
    exact howns.closing
  | report => exact hsame h.keeps_report
  | controlType call =>
    cases h with
    | controlType c => exact hsame (call.keeps_act c)
    | _ => exact keeps_pure _ _
  | zone call =>
    cases h with
    | zone z => exact hsame (call.keeps_act z)
    | _ => exact keeps_pure _ _
  | constraint call =>
    cases h with
    | constraint c => exact hsame (call.keeps_act c)
    | _ => exact keeps_pure _ _
  | package call =>
    cases h with
    | package p => exact hsame (call.keeps_act p)
    | _ => exact keeps_pure _ _

end Handle

/-! ## Requests -/

namespace Handles

variable {handles : Handles} {name : String}

@[simp] theorem descriptors_cons (entry : String × Handle) (rest : Handles) :
    descriptors (entry :: rest) = entry.2.descriptors ++ descriptors rest := rfl

/-- All descriptors are those of the handle under a name, and those of the others. -/
theorem perm_descriptors (hnodup : (handles.map Prod.fst).Nodup) (name : String) :
    handles.descriptors.Perm
      ((handles.lookup name).elim [] Handle.descriptors ++ (handles.erase name).descriptors) := by
  cases h : handles.lookup name with
  | none => rw [erase_of_lookup_none h]; exact .refl _
  | some handle => exact (Keyed.perm_of_lookup hnodup h).flatMap_right _

/-- Letting go of a name loses the descriptors of its handle. -/
theorem trades_release (hnodup : (handles.map Prod.fst).Nodup) (name : String)
    (more failed : List DescriptorId) :
    (handles.release name).Trades (more ++ handles.descriptors)
      (fun _ => more ++ (handles.erase name).descriptors) failed := by
  refine (trades_of_closing (handles.run_release name) (more ++ (handles.erase name).descriptors)
    failed).perm ?_ (fun _ => .refl _) (.refl _)
  refine ((perm_descriptors hnodup name).append_left more).trans ?_
  simp only [← List.append_assoc]
  exact List.perm_append_comm.append_right _

end Handles

theorem keeps_edit (e : Edit) : (Action.edit e).Keeps := by
  refine keeps_of_descriptors_eq fun host => ?_
  simp only [Action.edit]
  split <;> rfl

/-- Every request hands the descriptors of the handles over to the handles after
it, and gives nothing away when it fails. -/
theorem Request.trades_act (t : Tree) {handles : Handles}
    (hnodup : (handles.map Prod.fst).Nodup) (r : Request) :
    (r.act t handles).Trades handles.descriptors (fun after => after.2.descriptors)
      handles.descriptors := by
  have hsame {α : Type} {a : Action α} (ha : a.Keeps) (f : α → Reply) :
      (do let x ← a; pure (f x, handles) : Action (Reply × Handles)).Trades handles.descriptors
        (fun after => after.2.descriptors) handles.descriptors :=
    ha.bind fun _ => trades_pure _ (.refl _)
  cases r with
  | query q => exact hsame (q.keeps_act t) id
  | oneShot o => exact hsame (o.keeps_act t) id
  | openHandle name what =>
    -- the new handle is there before the old one of that name is let go
    refine Trades.bind ((what.trades_act t).frame handles.descriptors) fun handle => ?_
    refine (Handles.trades_release hnodup name _ _).bind fun _ => trades_pure _ (.refl _)
  | call name what =>
    simp only [act]
    cases h : handles.lookup name with
    | none => exact keeps_pure _ _
    | some handle =>
      have hperm := (Keyed.perm_of_lookup hnodup h).flatMap_right fun h => h.2.descriptors
      refine (((handle.trades_call what).frame (handles.erase name).descriptors).perm hperm
        (fun _ => .refl _) hperm.symm).bind fun reply => trades_pure _ (.refl _)
  | drop name =>
    exact (Handles.trades_release hnodup name [] _).bind fun _ => trades_pure _ (.refl _)
  | edit e => exact hsame (keeps_edit e) fun _ => .done
  | contents route => exact hsame (keeps_query _) .bytes
  | openDescriptors => exact hsame (keeps_observe _) .size

/-- The handles after a request are those before it, up to the one under the
name that the request is about. -/
theorem Request.handles_after (t : Tree) {handles after : Handles} {r : Request} {host : Host}
    {reply : Reply} (h : ((r.act t handles).run host).result = .ok (reply, after)) :
    after = handles ∨ ∃ name, after = handles.erase name ∨ ∃ handle, after = handles.insert name handle := by
  cases r with
  | openHandle name what =>
    obtain ⟨handle, -, h⟩ := result_bind_eq_ok h
    obtain ⟨_, -, h⟩ := result_bind_eq_ok h
    cases h
    exact .inr ⟨name, .inr ⟨handle, rfl⟩⟩
  | call name what =>
    simp only [act] at h
    cases hlook : handles.lookup name with
    | none =>
      rw [hlook] at h
      cases h
      exact .inl rfl
    | some handle =>
      rw [hlook] at h
      obtain ⟨answer, -, h⟩ := result_bind_eq_ok h
      cases h
      exact .inr ⟨name, .inr ⟨_, rfl⟩⟩
  | drop name =>
    obtain ⟨_, -, h⟩ := result_bind_eq_ok h
    cases h
    exact .inr ⟨name, .inl rfl⟩
  | _ =>
    obtain ⟨_, -, h⟩ := result_bind_eq_ok h
    cases h
    exact .inl rfl

namespace Session

/-- The handles own every open descriptor, and each has a name of its own. -/
structure Accounted (s : Session) : Prop where
  names : (s.handles.map Prod.fst).Nodup
  owns : s.host.Owns s.handles.descriptors []

theorem accounted_start (t : Tree) (files : FileSystem) : (start t files).Accounted where
  names := List.nodup_nil
  owns := Host.Owns.nil_entries _

theorem Accounted.step {s : Session} (h : s.Accounted) (r : Request) : (s.step r).1.Accounted := by
  have howns := r.trades_act s.tree h.names s.host [] h.owns
  cases hres : ((r.act s.tree s.handles).run s.host).result with
  | error e =>
    rw [hres] at howns
    simp only [Session.step, hres]
    exact ⟨h.names, howns⟩
  | ok answer =>
    rw [hres] at howns
    simp only [Session.step, hres]
    refine ⟨?_, howns⟩
    rcases Request.handles_after s.tree hres with heq | ⟨name, heq | ⟨handle, heq⟩⟩
    · exact heq ▸ h.names
    · exact heq ▸ Handles.nodup_erase h.names name
    · exact heq ▸ Handles.nodup_insert h.names name handle

/-- Whatever happens, every descriptor is accounted for. -/
theorem accounted_after (t : Tree) (files : FileSystem) (events : List Event) :
    ((start t files).after events).Accounted :=
  after_induction (accounted_start t files) (fun _ r h => h.step r)
    (fun _ _ h => ⟨h.names, h.owns.of_descriptors_eq rfl⟩) events

end Session

/-! ## Counting slots -/

/-- The number of open slots of a table. -/
def Slots.openCount {α : Type} (slots : Slots α) : Nat :=
  slots.countP fun s => s.2.isOpen

theorem Slots.length_descriptors {α : Type} (slots : Slots α) :
    slots.descriptors.length = slots.openCount := by
  induction slots with
  | nil => rfl
  | cons s rest ih =>
    rw [descriptors_cons, List.length_append, ih, openCount, openCount, List.countP_cons]
    cases s.2 <;> simp [Slot.descriptor?, Slot.isOpen, Nat.add_comm]

/-- The number of open slots of a zone and its two constraints. -/
def PowerDomain.openSlots (d : PowerDomain) : Nat :=
  d.zone.slots.openCount + d.longTerm.slots.openCount + d.shortTerm.slots.openCount

theorem Slots.closed_eq_self {α : Type} {slots : Slots α} (hzero : slots.openCount = 0) :
    slots.closed = slots := by
  refine (List.map_congr_left fun s hs => ?_).trans (List.map_id _)
  have hclosed : s.2.isOpen = false := by simpa using List.countP_eq_zero.mp hzero s hs
  obtain ⟨a, slot⟩ := s
  cases slot with
  | absent => rfl
  | opened id path grant => cases hclosed

theorem PowerDomain.closed_eq_self {d : PowerDomain} (hzero : d.openSlots = 0) :
    d.closed = d := by
  simp only [openSlots, Nat.add_eq_zero_iff] at hzero
  simp only [closed, Zone.closed, Constraint.closed, Slots.closed_eq_self hzero.1.1,
    Slots.closed_eq_self hzero.1.2, Slots.closed_eq_self hzero.2]

namespace Handle

/-- The number of open slots of a handle. -/
def openSlots : Handle → Nat
  | .controlType c => if c.enabledSlot.isOpen then 1 else 0
  | .zone z => z.slots.openCount
  | .constraint c => c.slots.openCount
  | .package p => (p.domains.map fun d => d.2.openSlots).sum

/-- Each open slot keeps one descriptor. -/
theorem length_descriptors (h : Handle) : h.descriptors.length = h.openSlots := by
  cases h with
  | controlType c => cases hs : c.enabledSlot <;>
      simp [descriptors, ControlType.descriptors, openSlots, hs, Slot.descriptor?, Slot.isOpen]
  | zone z => exact z.slots.length_descriptors
  | constraint c => exact c.slots.length_descriptors
  | package p =>
    simp only [descriptors, Package.descriptors, openSlots, List.length_flatMap,
      PowerDomain.descriptors, List.length_append, Zone.descriptors, Constraint.descriptors,
      Slots.length_descriptors, PowerDomain.openSlots]

theorem closed_eq_self {h : Handle} (hzero : h.openSlots = 0) : h.closed = h := by
  cases h with
  | controlType c =>
    obtain ⟨name, slot⟩ := c
    cases slot with
    | absent => rfl
    | opened id path grant => simp [openSlots, Slot.isOpen] at hzero
  | zone z => rw [closed, Zone.closed, Slots.closed_eq_self hzero]
  | constraint c => rw [closed, Constraint.closed, Slots.closed_eq_self hzero]
  | package p =>
    have hall : ∀ d ∈ p.domains, d.2.openSlots = 0 :=
      fun d hd => List.sum_eq_zero_iff_forall_eq_nat.mp hzero _ (List.mem_map_of_mem hd)
    have hmap : (p.domains.map fun d => (d.1, d.2.closed)) = p.domains := by
      refine (List.map_congr_left fun d hd => ?_).trans (List.map_id _)
      rw [PowerDomain.closed_eq_self (hall d hd)]
      rfl
    rw [closed, Package.closed, hmap]

@[simp] theorem openSlots_closed (h : Handle) : h.closed.openSlots = 0 := by
  rw [← length_descriptors, descriptors_closed, List.length_nil]

/-- A handle without open slots keeps no descriptor. -/
theorem descriptors_eq_nil {h : Handle} (hzero : h.openSlots = 0) : h.descriptors = [] := by
  rwa [← length_descriptors, List.length_eq_zero_iff] at hzero

end Handle

theorem Handles.length_descriptors (handles : Handles) :
    handles.descriptors.length = (handles.map fun h => h.2.openSlots).sum := by
  simp [descriptors, List.length_flatMap, Handle.length_descriptors]

/-! ## Closing and dropping -/

namespace Session

variable {s : Session} {name : String} {handle : Handle}

/-- The whole effect of closing the handle under a name. -/
theorem step_close (h : s.handles.lookup name = some handle) :
    s.step (.call name .close) =
      ({ s with
          host := s.host.closing handle.descriptors
          handles := s.handles.insert name handle.closed },
        ⟨.ok .done, []⟩) := by
  simp only [step, Request.act, h, run_bind, Handle.run_call_close, run_pure, List.append_nil]

/-- The whole effect of dropping the handle under a name. -/
theorem step_drop (h : s.handles.lookup name = some handle) :
    s.step (.drop name) =
      ({ s with host := s.host.closing handle.descriptors, handles := s.handles.erase name },
        ⟨.ok (.flag true), []⟩) := by
  simp only [step, Request.act, h, run_bind, Handles.run_release, run_pure, List.append_nil,
    Option.elim, Option.isSome]

/-- The open descriptors are as many as the open slots of the handles. -/
theorem Accounted.size_eq (hs : s.Accounted) :
    s.host.descriptors.size = (s.handles.map fun h => h.2.openSlots).sum := by
  rw [hs.owns.size_eq, List.length_nil, Nat.add_zero, Handles.length_descriptors]

/-- Closing a handle closes as many descriptors as it has open slots. -/
theorem Accounted.size_close (hs : s.Accounted) (h : s.handles.lookup name = some handle) :
    (s.step (.call name .close)).1.host.descriptors.size + handle.openSlots =
      s.host.descriptors.size := by
  have hafter := (hs.step (.call name .close)).owns.size_eq
  have hbefore := hs.owns.size_eq
  have hperm := (Handles.perm_descriptors hs.names name).length_eq
  rw [step_close h] at hafter ⊢
  simp only [h, Option.elim, List.length_append, Handle.length_descriptors] at hperm
  simp only [Handles.insert, Handles.descriptors_cons, Handle.descriptors_closed,
    List.nil_append] at hafter
  rw [hafter, hbefore, hperm]
  omega

end Session

/-- **No descriptor is lost.** After all events, as many descriptors are open as
the handles have open slots. An opening that fails, at whichever attribute or
zone, a one-shot access and a question leave as many open as before. Closing a
handle closes all of its own, and closing or dropping a handle without open
slots leaves the host as it is. -/
theorem openDescriptors_eq_openSlots (t : Tree) (files : FileSystem) (events : List Event) :
    let s := (Session.start t files).after events
    s.host.descriptors.size = (s.handles.map fun h => h.2.openSlots).sum ∧
    (∀ (what : Opening) (e : Failure), ((what.act t).run s.host).result = .error e →
      ((what.act t).run s.host).host.descriptors.size = s.host.descriptors.size) ∧
    (∀ o : OneShot, ((o.act t).run s.host).host.descriptors.size = s.host.descriptors.size) ∧
    (∀ q : Query, ((q.act t).run s.host).host.descriptors.size = s.host.descriptors.size) ∧
    (∀ name handle, s.handles.lookup name = some handle →
      let closed := (s.step (.call name .close)).1
      closed.handles.lookup name = some handle.closed ∧ handle.closed.openSlots = 0 ∧
      closed.host.descriptors.size + handle.openSlots = s.host.descriptors.size) ∧
    (∀ name handle, s.handles.lookup name = some handle → handle.openSlots = 0 →
      (s.step (.call name .close)).1.host = s.host ∧
      (s.step (.call name .close)).1.handles.lookup name = some handle ∧
      (s.step (.call name .close)).2.result = .ok .done ∧
      (s.step (.drop name)).1.host = s.host) := by
  intro s
  have hs : s.Accounted := Session.accounted_after t files events
  refine ⟨hs.size_eq, fun what e he => ?_, fun o => ?_, fun q => ?_, ?_, ?_⟩
  · exact ((what.trades_act t).perm_of_error he).length_eq
  · exact ((o.keeps_act t).perm s.host).length_eq
  · exact ((q.keeps_act t).perm s.host).length_eq
  · intro name handle h
    refine ⟨?_, handle.openSlots_closed, hs.size_close h⟩
    rw [Session.step_close h]
    exact Handles.lookup_insert name handle.closed
  · intro name handle h hzero
    rw [Session.step_close h, Session.step_drop h, Handle.descriptors_eq_nil hzero,
      Handle.closed_eq_self hzero]
    exact ⟨rfl, Handles.lookup_insert name handle, rfl, rfl⟩

end PowerZones
