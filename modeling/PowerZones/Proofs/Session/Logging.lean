import PowerZones.Proofs.Action.Hush
import PowerZones.Proofs.Entity.Agreement
import PowerZones.Proofs.Session.Setters

/-!
# Logging is a side channel

Whoever listens, and how closely, makes no difference to what is done: two sessions
whose loggers differ answer alike, and leave the same host and the same handles.
Only the records differ, and they are those of a logger that lets everything pass,
without the ones that do not.

* **`Tree.loud`** is a tree that records everything;
* **`Request.hushed_act`**: every request does the same on a tree as on the loud one,
  with fewer records;
* **`Session.after_loud`**: so does every list of events;
* **`logging_is_a_side_channel`** compares any two loggers by way of the loud one.
-/

namespace PowerZones

open PowerZones.Action

/-- The same tree with a logger that lets every record pass. -/
def Tree.loud (t : Tree) (destination : Destination) : Tree :=
  { t with logger := .loud destination }

/-! ## Writing -/

section Write

variable {keep : Record → Bool}

theorem Tree.hushed_writeNumber (t : Tree) (a : Address) (attr : Attribute) (v : UInt64) :
    (t.writeNumber a attr v).Hushed keep (t.writeNumber a attr v) := by
  unfold writeNumber
  split
  · refine (silent_ofExcept _).hushed.bind fun path => ?_
    refine (silent_observe _).hushed.bind fun node => (hushed_openNode _ _).bind fun id => ?_
    exact (Action.hushed_writeNumber id v).thenAlways (hushed_close id)
  · exact (silent_fail _).hushed

theorem Slot.hushed_writeNumber (slot : Slot) (v : UInt64) :
    (slot.writeNumber v).Hushed keep (slot.writeNumber v) := by
  cases slot with
  | absent => exact (silent_fail _).hushed
  | opened id path grant =>
    simp only [writeNumber]
    split
    · exact Action.hushed_writeNumber id v
    · exact (silent_fail _).hushed

/-- No call on a handle makes a record. -/
theorem Handle.hushed_call (h : Handle) (what : Call) :
    (h.call what).Hushed keep (h.call what) := by
  cases hset : what.set? with
  | none => exact (h.silent_of_set? hset).hushed
  | some set =>
    obtain ⟨key, v⟩ := set
    rw [h.call_of_set? hset]
    split
    · exact ((h.slot key).hushed_writeNumber v).map _
    · exact (silent_pure _).hushed

end Write

/-! ## Opening -/

section Opening

variable (t : Tree) (d : Destination) (a : Address) (readOnly : Bool)

/-- The failures and absences on opening a slot are recorded; the slot is the same. -/
theorem Tree.hushed_openSlot (attr : Attribute) (write : Bool) :
    (t.openSlot a attr write).Hushed t.logger.lets ((t.loud d).openSlot a attr write) := by
  refine (silent_ofExcept (t.attributePath a attr)).hushed.bind fun path => ?_
  refine (silent_observe _).hushed.bind fun verdict => ?_
  cases verdict with
  | missing => exact (hushed_note _ _ _ _).bind fun _ => (silent_pure _).hushed
  | granted node access grant =>
    exact (hushed_openNode _ _).bind fun id => (silent_pure _).hushed
  | refused retried why => exact (hushed_note _ _ _ _).bind fun _ => (silent_fail _).hushed

theorem Slots.hushed_openAll {α : Type} {keep : Record → Bool} {openOne openLoud : α → Action Slot}
    (h : ∀ x, (openOne x).Hushed keep (openLoud x)) (attrs : List α) :
    (openAll openOne attrs).Hushed keep (openAll openLoud attrs) := by
  induction attrs with
  | nil => exact (silent_pure _).hushed
  | cons x rest ih =>
    refine (h x).bind fun slot => ?_
    have hclose : slot.close.Silent := silent_of_closing slot.run_close
    exact (ih.onFailure hclose.hushed).bind fun slots => (silent_pure _).hushed

theorem Tree.hushed_openZone :
    (t.openZone a readOnly).Hushed t.logger.lets ((t.loud d).openZone a readOnly) :=
  (Slots.hushed_openAll (fun _ => t.hushed_openSlot d a _ _) _).bind
    fun _ => (silent_pure _).hushed

theorem Tree.hushed_openConstraint (number : UInt32) :
    (t.openConstraint a number readOnly).Hushed t.logger.lets
      ((t.loud d).openConstraint a number readOnly) :=
  (Slots.hushed_openAll (fun _ => t.hushed_openSlot d a _ _) _).bind
    fun _ => (silent_pure _).hushed

/-! ## Domains and packages -/

theorem Constraint.silent_misnamed (c : Constraint) (term : Term) : (c.misnamed term).Silent := by
  refine (c.slot .name).silent_readName.attempt.bind fun name => ?_
  cases name with
  | ok name => exact silent_pure _
  | error e => exact silent_pure _

/-- That the constraints of a zone are out of order is recorded. -/
theorem PowerDomain.hushed_order (logger : Logger) (domain : PowerDomain) :
    (domain.order logger a).Hushed logger.lets (domain.order (.loud d) a) := by
  refine (domain.longTerm.silent_misnamed _).hushed.bind fun long => ?_
  refine (domain.shortTerm.silent_misnamed _).hushed.bind fun short => ?_
  split
  · exact (hushed_note _ _ _ _).bind fun _ => (silent_pure _).hushed
  · exact (silent_pure _).hushed

theorem Tree.hushed_openDomain (zones : List UInt32) :
    (t.openDomain zones readOnly).Hushed t.logger.lets ((t.loud d).openDomain zones readOnly) := by
  refine (t.hushed_openZone d _ readOnly).bind fun zone => ?_
  have hzone : zone.slots.closeAll.Silent := silent_of_closing zone.slots.run_closeAll
  refine ((t.hushed_openConstraint d _ readOnly _).onFailure hzone.hushed).bind fun longTerm => ?_
  have hboth : (do zone.slots.closeAll; longTerm.slots.closeAll : Action Unit).Silent :=
    hzone.bind fun _ => silent_of_closing longTerm.slots.run_closeAll
  refine ((t.hushed_openConstraint d _ readOnly _).onFailure hboth.hushed).bind fun shortTerm => ?_
  exact PowerDomain.hushed_order d _ t.logger _

/-- A name that tells no domain is recorded. -/
theorem Tree.hushed_identify (zones : List UInt32) :
    (t.identify zones).Hushed t.logger.lets ((t.loud d).identify zones) := by
  refine (t.silent_readName (raplAddress zones) (.zone .name)).hushed.bind fun name => ?_
  split
  · exact (silent_pure _).hushed
  · exact (hushed_note _ _ _ _).bind fun _ => (silent_fail _).hushed

/-- A domain met twice is recorded. -/
theorem Tree.hushed_openSubzone (id : UInt32) (met : List (Domain × PowerDomain))
    (index : UInt32) :
    (t.openSubzone id readOnly met index).Hushed t.logger.lets
      ((t.loud d).openSubzone id readOnly met index) := by
  refine (t.hushed_identify d _).bind fun domain => ?_
  split
  · exact (hushed_note _ _ _ _).bind fun _ => (silent_fail _).hushed
  · exact (t.hushed_openDomain d readOnly _).bind fun opened => (silent_pure _).hushed

theorem Tree.hushed_openSubzones (id : UInt32) (met : List (Domain × PowerDomain))
    (indices : List UInt32) :
    (t.openSubzones id readOnly met indices).Hushed t.logger.lets
      ((t.loud d).openSubzones id readOnly met indices) := by
  induction indices generalizing met with
  | nil => exact (silent_pure _).hushed
  | cons index rest ih =>
    have hclose : (closeDomains met).Silent := silent_of_closing (run_closeDomains met)
    rw [t.openSubzones_cons, (t.loud d).openSubzones_cons]
    exact ((t.hushed_openSubzone d readOnly id met index).onFailure hclose.hushed).bind
      fun opened => ih _

theorem Tree.hushed_openPackage (id : UInt32) :
    (t.openPackage id readOnly).Hushed t.logger.lets ((t.loud d).openPackage id readOnly) := by
  refine (t.hushed_identify d _).bind fun domain => ?_
  refine (t.hushed_openDomain d readOnly _).bind fun opened => ?_
  have hclose : (closeDomains [(domain, opened)]).Silent := silent_of_closing (run_closeDomains _)
  have hcount : (query fun fs => t.zoneCount fs (raplAddress [id])).Silent := silent_observe _
  refine (hcount.hushed.onFailure hclose.hushed).bind fun count => ?_
  exact (t.hushed_openSubzones d readOnly id _ _).bind fun domains => (silent_pure _).hushed

/-- That there are no packages is recorded. -/
theorem Tree.hushed_packageCount :
    t.packageCount.Hushed t.logger.lets (t.loud d).packageCount := by
  have hcount : (query fun fs => t.zoneCount fs (raplAddress [])).Silent := silent_observe _
  refine hcount.hushed.bind fun count => ?_
  split
  · exact (hushed_note _ _ _ _).bind fun _ => (silent_fail _).hushed
  · exact (silent_pure _).hushed

/-! ## Requests -/

theorem OneShot.hushed_act (o : OneShot) :
    (o.act t).Hushed t.logger.lets (o.act (t.loud d)) := by
  have hnumber (a : Address) (attr : Attribute) :
      (t.readNumber a attr).Hushed t.logger.lets ((t.loud d).readNumber a attr) :=
    (t.silent_readNumber a attr).hushed
  have hname (a : Address) (attr : Attribute) :
      (t.readName a attr).Hushed t.logger.lets ((t.loud d).readName a attr) :=
    (t.silent_readName a attr).hushed
  cases hset : o.set? with
  | some set =>
    obtain ⟨a, attr, v⟩ := set
    rw [o.act_of_set? t hset, o.act_of_set? (t.loud d) hset]
    exact (t.hushed_writeNumber a attr v).map _
  | none =>
    cases o with
    | readNumber a attr => exact (hnumber a attr).map _
    | controlTypeEnabled controlType => exact ((hnumber _ _).map _).map _
    | zoneName a => exact (hname a _).map _
    | zoneEnabled a => exact ((hnumber a _).map _).map _
    | constraintName a number => exact (hname a _).map _
    | packageCount => exact (t.hushed_packageCount d).map _
    | raplEnabled => exact ((hnumber _ _).map _).map _
    | _ => cases hset

theorem Opening.hushed_act (what : Opening) :
    (what.act t).Hushed t.logger.lets (what.act (t.loud d)) := by
  cases what with
  | controlType name readOnly =>
    exact ((t.hushed_openSlot d _ _ _).bind fun _ => (silent_pure _).hushed).map _
  | zone a readOnly => exact (t.hushed_openZone d a readOnly).map _
  | constraint a number readOnly => exact (t.hushed_openConstraint d a readOnly number).map _
  | package id readOnly => exact (t.hushed_openPackage d readOnly id).map _

/-- A request does the same for every logger, and lets pass what the logger does. -/
theorem Request.hushed_act (handles : Handles) (r : Request) :
    (r.act t handles).Hushed t.logger.lets (r.act (t.loud d) handles) := by
  cases r with
  | query q => exact (q.silent_act t).hushed.bind fun _ => (silent_pure _).hushed
  | oneShot o => exact (o.hushed_act t d).bind fun _ => (silent_pure _).hushed
  | openHandle name what =>
    exact (what.hushed_act t d).bind fun _ => (handles.silent_release name).hushed.bind
      fun _ => (silent_pure _).hushed
  | call name what =>
    simp only [act]
    cases handles.lookup name with
    | none => exact (silent_pure _).hushed
    | some h => exact (h.hushed_call what).bind fun _ => (silent_pure _).hushed
  | drop name =>
    exact (handles.silent_release name).hushed.bind fun _ => (silent_pure _).hushed
  | edit e =>
    have hedit : (Action.edit e).Hushed t.logger.lets (Action.edit e) := by
      refine hushed_of_records fun host => ?_
      simp only [Action.edit]
      split <;> rfl
    exact hedit.bind fun _ => (silent_pure _).hushed
  | contents route => exact (silent_observe _).hushed.bind fun _ => (silent_pure _).hushed
  | openDescriptors => exact (silent_observe _).hushed.bind fun _ => (silent_pure _).hushed

end Opening

/-! ## Sessions -/

namespace Session

/-- The same session on the loud tree. -/
def loud (s : Session) (d : Destination) : Session :=
  { s with tree := s.tree.loud d }

/-- One request comes to the same, with fewer records. -/
theorem step_loud (s : Session) (d : Destination) (r : Request) :
    ((s.loud d).step r).1 = (s.step r).1.loud d ∧
    (s.step r).2.result = ((s.loud d).step r).2.result ∧
    (s.step r).2.records = ((s.loud d).step r).2.records.filter s.tree.logger.lets := by
  have hrun := Request.hushed_act s.tree d s.handles r s.host
  rcases hloud : (r.act (s.tree.loud d) s.handles).run s.host with ⟨e | answer, next, records⟩
  · rw [hloud] at hrun
    have hstep : s.step r =
        ({ s with host := next }, ⟨.error e, records.filter s.tree.logger.lets⟩) := by
      simp only [step, hrun]
    have hstep' : (s.loud d).step r = ({ s.loud d with host := next }, ⟨.error e, records⟩) := by
      simp only [step, loud, hloud]
    rw [hstep, hstep']
    exact ⟨rfl, rfl, rfl⟩
  · rw [hloud] at hrun
    have hstep : s.step r = ({ s with host := next, handles := answer.2 },
        ⟨.ok answer.1, records.filter s.tree.logger.lets⟩) := by
      simp only [step, hrun]
    have hstep' : (s.loud d).step r =
        ({ s.loud d with host := next, handles := answer.2 }, ⟨.ok answer.1, records⟩) := by
      simp only [step, loud, hloud]
    rw [hstep, hstep']
    exact ⟨rfl, rfl, rfl⟩

theorem tree_step (s : Session) (r : Request) : (s.step r).1.tree = s.tree := by
  rcases hrun : (r.act s.tree s.handles).run s.host with ⟨_ | answer, next, records⟩ <;>
    simp only [step, hrun]

/-- The tree of a session is always the same. -/
theorem tree_after (s : Session) (events : List Event) : (s.after events).tree = s.tree :=
  after_induction (P := fun next => next.tree = s.tree) rfl
    (fun next r h => (next.tree_step r).trans h) (fun _ _ h => h) events

/-- What happens to a session happens to the loud one. -/
theorem happen_loud (s : Session) (d : Destination) (e : Event) :
    (s.loud d).happen e = (s.happen e).loud d := by
  cases e with
  | request r => exact (s.step_loud d r).1
  | disturbance files => rfl

theorem after_loud (s : Session) (d : Destination) (events : List Event) :
    (s.loud d).after events = (s.after events).loud d := by
  induction events generalizing s with
  | nil => rfl
  | cons e rest ih =>
    show ((s.loud d).happen e).after rest = ((s.happen e).after rest).loud d
    rw [s.happen_loud d e, ih]

end Session

/-- **Logging is a side channel.** Two sessions on one file system, with any two
loggers: after the same events they have the same host and the same handles, and
whatever is asked next they answer alike. The records made then are, in their order,
those that are made under a logger of the least verbosity, as far as the verbosity of
the logger goes. -/
theorem logging_is_a_side_channel (root : String) (files : FileSystem) (events : List Event)
    (l l' : Logger) (d : Destination) :
    let after (logger : Logger) :=
      (Session.start { root := root, logger := logger } files).after events
    (after l).host = (after l').host ∧ (after l).handles = (after l').handles ∧
    ∀ r : Request,
      ((after l).step r).2.result = ((after l').step r).2.result ∧
      ((after l).step r).1.host = ((after l').step r).1.host ∧
      ((after l).step r).2.records =
        ((after (.loud d)).step r).2.records.filter l.lets := by
  intro after
  -- whatever the logger, the loud session is the one that starts with the loud logger
  have hloud (logger : Logger) : (after logger).loud d = after (.loud d) :=
    (Session.after_loud _ d events).symm
  have hsame : (after l).loud d = (after l').loud d := (hloud l).trans (hloud l').symm
  have hparts {s s' : Session} (h : s.loud d = s'.loud d) :
      s.host = s'.host ∧ s.handles = s'.handles := by
    injection h with _ hhost hhandles
    exact ⟨hhost, hhandles⟩
  refine ⟨(hparts hsame).1, (hparts hsame).2, fun r => ?_⟩
  obtain ⟨hstep, hresult, hrecords⟩ := (after l).step_loud d r
  obtain ⟨hstep', hresult', -⟩ := (after l').step_loud d r
  rw [hsame] at hstep hresult
  refine ⟨hresult.trans hresult'.symm, ?_, ?_⟩
  · exact (hparts (hstep.symm.trans hstep')).1
  · rw [hrecords, hloud l]
    have htree : (after l).tree = { root := root, logger := l } := Session.tree_after _ events
    rw [htree]

/-- That a control type has no switch is recorded under one logger and not under
the other, and its handle is opened under both. -/
theorem logging_is_a_side_channel_absent :
    let after (logger : Logger) := (Session.start { root := "/powercap", logger := logger }
      (switchOnly [0x31])).step (.openHandle "c" (.controlType "acpi" false))
    let quiet := after ⟨.downTo .warn, .installed⟩
    let chatty := after ⟨.downTo .debug, .sink⟩
    (quiet.2.result = .ok .done ∧ chatty.2.result = .ok .done) ∧ quiet.1.host = chatty.1.host ∧
    quiet.2.records = [] ∧ chatty.2.records.length = 1 := by
  intro after quiet chatty
  obtain ⟨-, -, hstep⟩ := logging_is_a_side_channel "/powercap" (switchOnly [0x31]) []
    ⟨.downTo .warn, .installed⟩ ⟨.downTo .debug, .sink⟩ .sink
  obtain ⟨hresult, hhost, hrecords⟩ := hstep (.openHandle "c" (.controlType "acpi" false))
  have hdone : chatty.2.result = .ok .done := by rfl
  exact ⟨⟨hresult.trans hdone, hdone⟩, hhost, hrecords.trans (by rfl), by rfl⟩

end PowerZones
