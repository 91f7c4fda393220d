import PowerZones.Proofs.Session.Getters
import PowerZones.Proofs.Session.Logging
import PowerZones.Proofs.Session.Origin

/-!
# The life of a slot

A handle lives from its opening until it is dropped, or another takes its name. All
that happens to it on the way is that it may be closed.

* **`Session.Leaves`** is an event that does not end the life of a handle, and
  **`Session.Along`** says something of every event of a run;
* **`Session.lookup_happen`** is the step lemma, **`Session.lookup_after`** the run lemma:
  the handle is the same, or the same with every slot closed;
* **`Session.Sourced.same_node`**: a slot that is open at two moments of a life is open on
  the same node at both, as its origin is the same;
* **`slots_live_until_closed`** puts the three together with what an absent slot answers.
-/

namespace PowerZones

open PowerZones.Action

/-! ## Handles that are closed -/

namespace Handle

@[simp] theorem takes_closed (h : Handle) (key : SlotKey) : h.closed.takes key = h.takes key := by
  cases h <;> cases key <;> rfl

end Handle

/-- A package knows its domains after it was closed as well. -/
theorem Package.domainSet_closed (p : Package) : p.closed.domainSet = p.domainSet := by
  have hkeys : p.closed.domains.map Prod.fst = p.domains.map Prod.fst := by
    simp only [closed, List.map_map]
    rfl
  have hhas (k : Domain) : p.closed.domainSet.has k = p.domainSet.has k := by
    rw [Bool.eq_iff_iff, has_domainSet_iff, has_domainSet_iff, hkeys]
  exact congrArg DomainSet.mk (funext hhas)

/-! ## Runs -/

/-- Whether an event closes the handle of a name. -/
def Event.closes (name : String) : Event → Bool
  | .request (.call other .close) => other = name
  | _ => false

namespace Session

/-- Something is so of each of some events, one after the other. -/
def Along (P : Session → Event → Prop) (s : Session) : List Event → Prop
  | [] => True
  | e :: rest => P s e ∧ (s.happen e).Along P rest

/-- An event does not end the life of the handle under a name: it does not drop the
handle, and it does not succeed in opening another under the name. -/
def Leaves (name : String) (s : Session) : Event → Prop
  | .request (.drop other) => other ≠ name
  | .request (.openHandle other what) =>
    other = name → (s.step (.openHandle other what)).2.result ≠ .ok .done
  | _ => True

variable {s : Session} {name : String} {h : Handle} {known : Origins}

/-- What holds of every event of a run still does when less is said of each. -/
theorem Along.imp {P Q : Session → Event → Prop} (himp : ∀ s e, P s e → Q s e)
    {events : List Event} (h : s.Along P events) : s.Along Q events := by
  induction events generalizing s with
  | nil => trivial
  | cons e rest ih => exact ⟨himp s e h.1, ih h.2⟩

/-- After a call, every name has the handle that it had, unless it was closed. -/
theorem lookup_step_call (s : Session) (other name : String) (what : Call)
    (hlook : s.handles.lookup name = some h) :
    (s.step (.call other what)).1.handles.lookup name =
      some (if other = name ∧ what = .close then h.closed else h) := by
  cases hother : s.handles.lookup other with
  | none =>
    have hne : other ≠ name := by
      rintro rfl
      rw [hlook] at hother
      cases hother
    have hstep : (s.step (.call other what)).1 = s := by
      simp only [step, Request.act, hother, run_pure]
    rw [hstep, hlook, if_neg fun hboth => hne hboth.1]
  | some called =>
    by_cases hclose : what = .close
    · subst hclose
      rw [step_close hother]
      by_cases hname : other = name
      · subst hname
        rw [hlook] at hother
        cases hother
        rw [if_pos ⟨rfl, rfl⟩]
        exact Handles.lookup_insert other h.closed
      · rw [if_neg fun hboth => hname hboth.1]
        exact (s.handles.lookup_insert_of_ne _ (Ne.symm hname)).trans hlook
    · obtain ⟨a, -, hcall⟩ := called.call_eq hclose
      rw [if_neg fun hboth => hclose hboth.2, ← hlook]
      -- the handle is put back under its name, or the call failed and it is still there
      rcases hrun : a.run s.host with ⟨e | reply, next, records⟩
      · simp only [step, Request.act, hother, hcall, run_bind, hrun]
      · simp only [step, Request.act, hother, hcall, run_bind, hrun, run_pure]
        exact Handles.lookup_insert_self_eq hother name

theorem lookup_step_openHandle (what : Opening) (other : String)
    (hlook : s.handles.lookup name = some h)
    (hleave : s.Leaves name (.request (.openHandle other what))) :
    (s.step (.openHandle other what)).1.handles.lookup name = some h := by
  rcases hrun : (what.act s.tree).run s.host with ⟨e | opened, next, records⟩
  · simp only [step, Request.act, run_bind, hrun]
    exact hlook
  · have hne : name ≠ other := by
      rintro rfl
      refine hleave rfl ?_
      simp only [step, Request.act, run_bind, hrun, Handles.run_release, run_pure]
    simp only [step, Request.act, run_bind, hrun, Handles.run_release, run_pure]
    exact (s.handles.lookup_insert_of_ne opened hne).trans hlook

/-- One event of the life of a handle closes it, or leaves it as it is. -/
theorem lookup_happen {e : Event} (hlook : s.handles.lookup name = some h)
    (hleave : s.Leaves name e) :
    (s.happen e).handles.lookup name = some (if e.closes name then h.closed else h) := by
  cases e with
  | disturbance files => exact hlook
  | request r =>
    have hkept {α : Type} {a : Action α} {reply : α → Reply}
        (hact : r.act s.tree s.handles = (do let x ← a; return (reply x, s.handles))) :
        (s.step r).1.handles.lookup name = some h := by
      rw [step_eq_of_bind hact]
      exact hlook
    cases r with
    | query q => exact hkept rfl
    | oneShot o => exact hkept rfl
    | edit e => exact hkept rfl
    | contents route => exact hkept rfl
    | openDescriptors => exact hkept rfl
    | openHandle other what => exact lookup_step_openHandle what other hlook hleave
    | call other what =>
      have hcloses : (Event.request (.call other what)).closes name = true ↔
          other = name ∧ what = .close := by
        cases what <;> simp [Event.closes]
      simp only [hcloses]
      exact s.lookup_step_call other name what hlook
    | drop other =>
      have hne : name ≠ other := Ne.symm hleave
      have hhandles : (s.step (.drop other)).1.handles = s.handles.erase other := by
        simp only [step, Request.act, run_bind, Handles.run_release, run_pure]
      show (s.step (.drop other)).1.handles.lookup name = some h
      rw [hhandles, s.handles.lookup_erase_of_ne hne, hlook]

/-- After a part of the life of a handle, it is as it was, or closed if anything in
between closed it. -/
theorem lookup_after {events : List Event} (hlook : s.handles.lookup name = some h)
    (hleave : s.Along (Leaves name) events) :
    (s.after events).handles.lookup name =
      some (if events.any (Event.closes name) then h.closed else h) := by
  induction events generalizing s h with
  | nil => exact hlook
  | cons e rest ih =>
    obtain ⟨hfirst, hrest⟩ := hleave
    have hnext := ih (lookup_happen hlook hfirst) hrest
    show ((s.happen e).after rest).handles.lookup name = _
    rw [hnext, List.any_cons]
    -- to close what is closed changes nothing
    cases e.closes name <;> cases rest.any (Event.closes name) <;> simp

/-! ## Origins -/

/-- The life of a handle has one origin. -/
theorem remember_of_leaves {e : Event} (hleave : s.Leaves name e) :
    s.remember known e name = known name := by
  cases e with
  | disturbance files => rfl
  | request r =>
    cases r with
    | openHandle other what =>
      rcases hrun : (what.act s.tree).run s.host with ⟨e | opened, next, records⟩
      · simp only [remember, step, Request.act, run_bind, hrun]
      · have hdone : (s.step (.openHandle other what)).2.result = .ok .done := by
          simp only [step, Request.act, run_bind, hrun, Handles.run_release, run_pure]
        have hne : name ≠ other := by
          rintro rfl
          exact hleave rfl hdone
        simp only [remember, hdone]
        exact Function.update_of_ne hne ..
    | _ => rfl

theorem origins_of_leaves {events : List Event} (hleave : s.Along (Leaves name) events) :
    s.origins known events name = known name := by
  induction events generalizing s known with
  | nil => rfl
  | cons e rest ih =>
    obtain ⟨hfirst, hrest⟩ := hleave
    exact (ih hrest).trans (remember_of_leaves hfirst)

/-- A slot that is open under a name at two moments, with no other origin in between,
is open on the same node. -/
theorem Sourced.same_node {s' : Session} {known' : Origins} (hs : s.Sourced known)
    (hs' : s'.Sourced known') (hknown : known' name = known name)
    (hlook : s.handles.lookup name = some h) (hlook' : s'.handles.lookup name = some h)
    {key : SlotKey} {id : DescriptorId} {path : String} {grant : Grant}
    (hslot : h.slot key = .opened id path grant) :
    ∃ n, s.host.descriptors.find? id = some ⟨n, grant.access⟩ ∧
      s'.host.descriptors.find? id = some ⟨n, grant.access⟩ := by
  obtain ⟨what, fs, horigin, hopened⟩ := hs.opened name h hlook
  obtain ⟨what', fs', horigin', hopened'⟩ := hs'.opened name h hlook'
  rw [hknown, horigin] at horigin'
  cases horigin'
  have hkey := hopened key
  have hkey' := hopened' key
  rw [hslot] at hkey hkey'
  cases hkey with
  | @opened _ _ _ _ _ n _ _ hnode hfind _ =>
    cases hkey' with
    | @opened _ _ _ _ _ n' _ _ hnode' hfind' _ =>
      -- both times it is the node that the path led to at the opening
      rw [hnode] at hnode'
      cases hnode'
      exact ⟨n, hfind, hfind'⟩

/-! ## Answers -/

/-- The slot of a handle is absent for good: whether it is to be read or set, the
answer is that it is not supported, and nothing is done for it. -/
structure Silenced (s : Session) (name : String) (key : SlotKey) : Prop where
  unsupported : ∀ what : Call, what.slot? = some key →
    s.step (.call name what) = (s, ⟨.error .unsupported, []⟩)
  notSupported : ∀ what : Call, what.supports? = some key →
    (s.step (.call name what)).1.host = s.host ∧
    (s.step (.call name what)).2 = ⟨.ok (.flag false), []⟩

theorem silenced_of_absent {key : SlotKey} (hlook : s.handles.lookup name = some h)
    (htakes : h.takes key = true) (habsent : h.slot key = .absent) : s.Silenced name key where
  unsupported what hwhat := by
    have hrun := Handle.call_absent hwhat htakes habsent s.host
    simp only [step, Request.act, hlook, run_bind, hrun]
  notSupported what hwhat := by
    have hcall := h.call_of_supports? hwhat
    rw [if_pos htakes, habsent] at hcall
    constructor <;> simp only [step, Request.act, hlook, hcall, run_bind, run_pure]
    rfl

/-- A package tells its index and its domains. -/
theorem step_package_call {p : Package} (hlook : s.handles.lookup name = some (.package p)) :
    (s.step (.call name (.package .id))).2.result = .ok (.count p.id) ∧
    (s.step (.call name (.package .domainSet))).2.result = .ok (.domains p.domainSet) := by
  constructor <;> simp only [step, Request.act, hlook] <;> rfl

end Session

/-- **The life of a slot.** Take a handle at any moment of its life, and a later one,
whatever happened in between, also to the files. If nobody closed it, then it is the same
handle: each open slot has the path and the grant that it had, and its descriptor is
open on the same node. If anybody closed it, all slots are absent. Every slot that is
absent at the first moment is absent at the second. A slot that is absent then is not
supported, which no file system has a say in. Closing succeeds, and does nothing where the
handle was closed before. A package has the same index and the same domains all along. -/
theorem slots_live_until_closed (t : Tree) (files : FileSystem) (earlier : List Event)
    (name : String) (h : Handle) :
    let s := (Session.start t files).after earlier
    s.handles.lookup name = some h → ∀ later, s.Along (Session.Leaves name) later →
    let s' := s.after later
    let closed := later.any (Event.closes name)
    ∃ h', s'.handles.lookup name = some h' ∧
      (closed = false → h' = h ∧ ∀ key id path grant, h.slot key = .opened id path grant →
        ∃ n, s.host.descriptors.find? id = some ⟨n, grant.access⟩ ∧
          s'.host.descriptors.find? id = some ⟨n, grant.access⟩) ∧
      (closed = true → (∀ key, h'.slot key = .absent) ∧
        (s'.step (.call name .close)).1.host = s'.host) ∧
      (∀ key, h.slot key = .absent → h'.slot key = .absent) ∧
      (∀ key, h.takes key = true → h'.slot key = .absent → s'.Silenced name key) ∧
      (s'.step (.call name .close)).2 = ⟨.ok .done, []⟩ ∧
      ∀ p, h = .package p →
        (s'.step (.call name (.package .id))).2.result = .ok (.count p.id) ∧
        (s'.step (.call name (.package .domainSet))).2.result = .ok (.domains p.domainSet) := by
  intro s hlook later hleave s' closed
  have hs := Session.sourced_after t files earlier
  have hs' := hs.after later
  have hlook' : s'.handles.lookup name = some (if closed then h.closed else h) :=
    Session.lookup_after hlook hleave
  refine ⟨_, hlook', ?_, ?_, ?_, ?_, ?_, ?_⟩
  · intro hopen
    rw [hopen] at hlook' ⊢
    refine ⟨rfl, ?_⟩
    intro key id path grant hslot
    exact hs.same_node hs' (Session.origins_of_leaves hleave) hlook hlook' hslot
  · intro hclosed
    rw [hclosed] at hlook' ⊢
    refine ⟨h.slot_closed, ?_⟩
    rw [Session.step_close hlook']
    simp
  · intro key habsent
    cases closed with
    | false => exact habsent
    | true => exact h.slot_closed key
  · intro key htakes habsent
    refine Session.silenced_of_absent hlook' ?_ habsent
    cases closed with
    | false => exact htakes
    | true => exact (h.takes_closed key).trans htakes
  · rw [Session.step_close hlook']
  · rintro p rfl
    cases hclosed : closed with
    | false =>
      rw [hclosed] at hlook'
      exact Session.step_package_call hlook'
    | true =>
      have hpackage : s'.handles.lookup name = some (.package p.closed) := by
        rw [hlook', hclosed]
        rfl
      have hcalls := Session.step_package_call hpackage
      rw [p.domainSet_closed] at hcalls
      exact hcalls

/-- A session that has a switch open for writing. -/
def Session.openSwitch : Session :=
  (start { root := "/powercap" } (switchOnly [0x31])).after
    [.request (.openHandle "c" (.controlType "dtpm" false))]

/-- The file of the switch is removed, and the file system is then replaced. -/
def Session.removal : List Event :=
  [.request (.edit (.remove (Route.ofText "/powercap/dtpm/enabled"))),
    .disturbance (switchOnly [0x30])]

/-- A switch whose file is removed is still open on its node, and once it is closed
nobody can ask it anything. -/
theorem slots_live_until_closed_removed :
    let closing := Session.removal ++ [.request (.call "c" .close)]
    Session.openSwitch.handles.lookup "c" =
      some (.controlType ⟨"dtpm", .opened 0 "/powercap/dtpm/enabled" .readWrite⟩) ∧
    (Session.openSwitch.after Session.removal).host.descriptors.find? 0 = some ⟨3, .readWrite⟩ ∧
    (Session.openSwitch.after closing).Silenced "c" .controlType := by
  intro closing
  have hhandle : Session.openSwitch.handles.lookup "c" =
      some (.controlType ⟨"dtpm", .opened 0 "/powercap/dtpm/enabled" .readWrite⟩) := by rfl
  have hfind : Session.openSwitch.host.descriptors.find? 0 = some ⟨3, .readWrite⟩ := by rfl
  have hleave : Session.openSwitch.Along (Session.Leaves "c") closing := by
    simp only [closing, Session.removal, List.cons_append, List.nil_append, Session.Along,
      Session.Leaves, and_self]
  have hleft : Session.openSwitch.Along (Session.Leaves "c") Session.removal := by
    simp only [Session.removal, Session.Along, Session.Leaves, and_self]
  have hlife := slots_live_until_closed { root := "/powercap" } (switchOnly [0x31])
    [.request (.openHandle "c" (.controlType "dtpm" false))] "c" _ hhandle
  change ∀ later, Session.openSwitch.Along (Session.Leaves "c") later → _ at hlife
  refine ⟨hhandle, ?_, ?_⟩
  · obtain ⟨h', -, hkept, -⟩ := hlife Session.removal hleft
    obtain ⟨-, hslots⟩ := hkept (by rfl)
    obtain ⟨n, hbefore, hafter⟩ := hslots .controlType _ _ _ (by rfl)
    change Session.openSwitch.host.descriptors.find? 0 = _ at hbefore
    rw [hfind] at hbefore
    cases hbefore
    unfold Session.openSwitch
    exact hafter
  · obtain ⟨h', -, -, hclosed, -, hsilenced, -⟩ := hlife closing hleave
    exact hsilenced .controlType (by rfl) ((hclosed (by rfl)).1 .controlType)

end PowerZones
