import PowerZones.Proofs.Session.SlotOrigin
import Mathlib.Logic.Function.Basic

/-!
# Where handles come from

Along a run of events, every name remembers what was last opened under it and
the file system in which that was done. Whatever handle is found under the name
later, its open slots are still those that were opened then: calls leave the
descriptors alone, and a closing closes those of one handle only.

* **`Origins`** is what the names remember, and **`Session.origins`** what they do
  after a list of events;
* **`Session.Sourced`** is the invariant, with **`Session.Sourced.step`** for one
  request and **`Session.sourced_after`** for a run.
-/

namespace PowerZones

open PowerZones.Action

/-! ## Descriptors that stay -/

section Descriptors

variable {host : Host} {ids : List DescriptorId} {frame : List (DescriptorId × OpenFile)}
  {id : DescriptorId} {file : OpenFile}

theorem Host.Owns.nodup (h : host.Owns ids frame) : ids.Nodup := by
  obtain ⟨own, hent, rfl⟩ := h
  have hnodup := (hent.map Prod.fst).nodup_iff.mp host.descriptors.nodup
  rw [List.map_append, List.nodup_append] at hnodup
  exact hnodup.1

theorem Descriptors.find?_of_mem {ds : Descriptors} (h : (id, file) ∈ ds.entries) :
    ds.find? id = some file :=
  Keyed.lookup_of_mem ds.nodup h

/-- What owns no descriptors closes none. -/
theorem Action.Trades.extends {α : Type} {a : Action α} {after : α → List DescriptorId}
    {failed : List DescriptorId} (ha : a.Trades [] after failed) (host : Host) :
    host.descriptors.Extends (a.run host).host.descriptors := by
  intro id file hid
  have hmem := Keyed.mem_of_lookup hid
  have howns := ha host _ (Host.Owns.nil_entries host)
  split at howns
  · obtain ⟨own, hent, -⟩ := howns
    exact Descriptors.find?_of_mem (hent.mem_iff.mpr (List.mem_append_right own hmem))
  · obtain ⟨own, hent, -⟩ := howns
    exact Descriptors.find?_of_mem (hent.mem_iff.mpr (List.mem_append_right own hmem))

theorem Host.find?_closing (hid : host.descriptors.find? id = some file) (hne : id ∉ ids) :
    (host.closing ids).descriptors.find? id = some file := by
  induction ids generalizing host with
  | nil => exact hid
  | cons first rest ih =>
    rw [List.mem_cons, not_or] at hne
    have hfirst : (host.descriptors.erase first).find? id = some file := by
      refine Descriptors.find?_of_mem (List.mem_filter.mpr ⟨Keyed.mem_of_lookup hid, ?_⟩)
      simpa using hne.1
    show (({ host with descriptors := host.descriptors.erase first } : Host).closing
      rest).descriptors.find? id = some file
    exact ih hfirst hne.2

end Descriptors

/-- A call other than a closing keeps its descriptors, and the handle. -/
theorem Handle.call_eq (h : Handle) {what : Call} (hne : what ≠ .close) :
    ∃ a : Action Reply, a.Keeps ∧ h.call what = (do let reply ← a; return (reply, h)) := by
  have hstrange : ∃ a : Action Reply, a.Keeps ∧
      pure (Reply.noHandle, h) = (do let reply ← a; return (reply, h)) :=
    ⟨pure .noHandle, keeps_pure _, rfl⟩
  cases what with
  | close => exact absurd rfl hne
  | report => exact ⟨h.report, h.keeps_report, by cases h <;> rfl⟩
  | controlType call =>
    cases h with
    | controlType c => exact ⟨call.act c, call.keeps_act c, rfl⟩
    | _ => exact hstrange
  | zone call =>
    cases h with
    | zone z => exact ⟨call.act z, call.keeps_act z, rfl⟩
    | _ => exact hstrange
  | constraint call =>
    cases h with
    | constraint c => exact ⟨call.act c, call.keeps_act c, rfl⟩
    | _ => exact hstrange
  | package call =>
    cases h with
    | package p => exact ⟨call.act p, call.keeps_act p, rfl⟩
    | _ => exact hstrange

namespace Handles

variable {handles : Handles} {name other : String} {h h' : Handle}

theorem lookup_erase_self (handles : Handles) (name : String) :
    (handles.erase name).lookup name = none := by
  rw [← Option.not_isSome_iff_eq_none, Keyed.isSome_lookup_iff]
  intro hmem
  obtain ⟨e, he, hname⟩ := List.mem_map.mp hmem
  have hne : e.1 ≠ name := by simpa using (List.mem_filter.mp he).2
  exact hne hname

theorem lookup_erase_of_ne (handles : Handles) (hne : other ≠ name) :
    (handles.erase name).lookup other = handles.lookup other := by
  unfold erase
  induction handles with
  | nil => rfl
  | cons entry rest ih =>
    by_cases hkey : entry.1 = name
    · have hother : (other == entry.1) = false := by simpa [hkey] using hne
      rw [List.filter_cons_of_neg (by simpa using hkey), ih]
      rw [List.lookup_cons, hother]
    · rw [List.filter_cons_of_pos (by simpa using hkey), List.lookup_cons, List.lookup_cons, ih]

theorem lookup_insert_of_ne (handles : Handles) (h : Handle) (hne : other ≠ name) :
    (handles.insert name h).lookup other = handles.lookup other := by
  have hother : (other == name) = false := by simpa using hne
  rw [insert, List.lookup_cons, hother]
  exact handles.lookup_erase_of_ne hne

theorem lookup_insert_self_eq (hlook : handles.lookup name = some h) (other : String) :
    (handles.insert name h).lookup other = handles.lookup other := by
  by_cases heq : other = name
  · rw [heq, lookup_insert, hlook]
  · exact handles.lookup_insert_of_ne h heq

theorem disjoint_descriptors (hnames : (handles.map Prod.fst).Nodup)
    (hnodup : handles.descriptors.Nodup) (hlook : handles.lookup name = some h)
    (hlook' : handles.lookup other = some h') (hne : other ≠ name) {id : DescriptorId}
    (hid : id ∈ h'.descriptors) : id ∉ h.descriptors := by
  have hsplit := (perm_descriptors hnames name).nodup_iff.mp hnodup
  rw [hlook, Option.elim, List.nodup_append] at hsplit
  intro hmem
  have hmem' : (other, h') ∈ handles.erase name := by
    apply Keyed.mem_of_lookup
    rw [handles.lookup_erase_of_ne hne, hlook']
  exact hsplit.2.2 id hmem id (List.mem_flatMap.mpr ⟨(other, h'), hmem', hid⟩) rfl

end Handles

/-! ## Origins -/

/-- For each name, what was last opened under it, and the file system in which
that was done. -/
abbrev Origins := String → Option (Opening × FileSystem)

namespace Session

variable {s : Session} {known : Origins}

/-- The origins after one event: only a handle that was opened is remembered. -/
def remember (s : Session) (known : Origins) : Event → Origins
  | .request (.openHandle name what) =>
    match (s.step (.openHandle name what)).2.result with
    | .ok _ => Function.update known name (some (what, s.host.files))
    | .error _ => known
  | _ => known

/-- The origins after some events. -/
def origins (s : Session) (known : Origins) : List Event → Origins
  | [] => known
  | e :: rest => (s.happen e).origins (s.remember known e) rest

/-- All descriptors are accounted for, and every handle is open where it was
opened under its name. -/
structure Sourced (s : Session) (known : Origins) : Prop where
  accounted : s.Accounted
  opened : ∀ name h, s.handles.lookup name = some h → ∃ what fs,
    known name = some (what, fs) ∧ h.OpenedAs s.tree fs s.host.descriptors what

/-- An action that keeps its descriptors changes nothing but the host. -/
theorem step_eq_of_bind {α : Type} {a : Action α} {reply : α → Reply} {r : Request}
    (hact : r.act s.tree s.handles = (do let x ← a; return (reply x, s.handles))) :
    (s.step r).1 = { s with host := (a.run s.host).host } := by
  simp only [step, hact, run_bind]
  rcases a.run s.host with ⟨_ | x, next, records⟩ <;> rfl

namespace Sourced

/-- Where no descriptor is closed, and every name still has its handle, nothing
is lost. -/
theorem of_extends (hs : s.Sourced known) {next : Session} (hnext : next.Accounted)
    (htree : next.tree = s.tree)
    (hhandles : ∀ name, next.handles.lookup name = s.handles.lookup name)
    (hext : s.host.descriptors.Extends next.host.descriptors) : next.Sourced known := by
  refine ⟨hnext, fun name h hlook => ?_⟩
  rw [hhandles] at hlook
  obtain ⟨what, fs, hknown, hopened⟩ := hs.opened name h hlook
  rw [htree]
  exact ⟨what, fs, hknown, hopened.of_find? fun id _ => hext id⟩

/-- A request that keeps its descriptors and the handles loses nothing. -/
theorem of_keeps (hs : s.Sourced known) {α : Type} {a : Action α} {reply : α → Reply} {r : Request}
    (hact : r.act s.tree s.handles = (do let x ← a; return (reply x, s.handles))) (ha : a.Keeps) :
    (s.step r).1.Sourced known := by
  have hstep := step_eq_of_bind hact
  refine hs.of_extends (hs.accounted.step r) ?_ (fun name => ?_) ?_
  · rw [hstep]
  · rw [hstep]
  · rw [hstep]
    exact (ha []).extends s.host

/-- Closing one handle leaves the others as they are. -/
theorem of_closing (hs : s.Sourced known) {name : String} {h : Handle}
    (hlook : s.handles.lookup name = some h) {next : Session} (hnext : next.Accounted)
    (htree : next.tree = s.tree) (hhost : next.host = s.host.closing h.descriptors)
    (hothers : ∀ other, other ≠ name → next.handles.lookup other = s.handles.lookup other)
    (hself : ∀ h', next.handles.lookup name = some h' → h' = h.closed) : next.Sourced known := by
  refine ⟨hnext, fun other h' hlook' => ?_⟩
  by_cases heq : other = name
  · subst heq
    obtain ⟨what, fs, hknown, -⟩ := hs.opened other h hlook
    rw [hself h' hlook']
    exact ⟨what, fs, hknown, h.openedAs_closed⟩
  · rw [hothers other heq] at hlook'
    obtain ⟨what, fs, hknown, hopened⟩ := hs.opened other h' hlook'
    rw [htree, hhost]
    refine ⟨what, fs, hknown, hopened.of_find? fun id hid file hfile => ?_⟩
    exact Host.find?_closing hfile (Handles.disjoint_descriptors hs.accounted.names
      hs.accounted.owns.nodup hlook hlook' heq hid)

/-- A handle newly opened takes the place of the one under its name, which is
closed. -/
theorem of_opening (hs : s.Sourced known) {name : String} {what : Opening} {h : Handle}
    {opened : Host} (hresult : ((what.act s.tree).run s.host).result = .ok h)
    (hhost : ((what.act s.tree).run s.host).host = opened)
    {next : Session} (hnext : next.Accounted) (htree : next.tree = s.tree)
    (hclosed : next.host =
      opened.closing ((s.handles.lookup name).elim [] Handle.descriptors))
    (hhandles : next.handles = s.handles.insert name h) :
    next.Sourced (Function.update known name (some (what, s.host.files))) := by
  have htrades := what.trades_act s.tree
  -- while both are open, the new handle and all old ones have their own descriptors
  have hnodup : (h.descriptors ++ s.handles.descriptors).Nodup := by
    have howns := htrades.frame s.handles.descriptors s.host [] hs.accounted.owns
    rw [hresult] at howns
    exact howns.nodup
  rw [List.nodup_append] at hnodup
  have hextends := htrades.extends s.host
  rw [hhost] at hextends
  refine ⟨hnext, fun other h' hlook' => ?_⟩
  rw [hhandles] at hlook'
  rw [htree, hclosed]
  by_cases heq : other = name
  · subst heq
    rw [Handles.lookup_insert] at hlook'
    cases hlook'
    refine ⟨what, s.host.files, Function.update_self .., ?_⟩
    have hopened := Opening.openedAs hresult
    rw [hhost] at hopened
    refine hopened.of_find? fun id hid file hfile => Host.find?_closing hfile fun hmem => ?_
    cases hlook : s.handles.lookup other with
    | none => simp [hlook] at hmem
    | some old =>
      rw [hlook] at hmem
      have hold : id ∈ s.handles.descriptors :=
        List.mem_flatMap.mpr ⟨(other, old), Keyed.mem_of_lookup hlook, hmem⟩
      exact hnodup.2.2 id hid id hold rfl
  · rw [Handles.lookup_insert_of_ne _ _ heq] at hlook'
    obtain ⟨what', fs, hknown, hopened⟩ := hs.opened other h' hlook'
    refine ⟨what', fs, (Function.update_of_ne heq ..).trans hknown, ?_⟩
    refine hopened.of_find? fun id hid file hfile =>
      Host.find?_closing (hextends id file hfile) fun hmem => ?_
    cases hlook : s.handles.lookup name with
    | none => simp [hlook] at hmem
    | some old =>
      rw [hlook] at hmem
      exact Handles.disjoint_descriptors hs.accounted.names hnodup.2.1 hlook hlook' heq hid hmem

theorem step_openHandle (hs : s.Sourced known) (name : String) (what : Opening) :
    (s.step (.openHandle name what)).1.Sourced
      (s.remember known (.request (.openHandle name what))) := by
  have hnext := hs.accounted.step (.openHandle name what)
  rcases hrun : (what.act s.tree).run s.host with ⟨e | h, opened, records⟩
  · have hstep : s.step (.openHandle name what) =
        ({ s with host := opened }, ⟨.error e, records⟩) := by
      simp only [Session.step, Request.act, run_bind, hrun]
    have hext := (what.trades_act s.tree).extends s.host
    rw [hrun] at hext
    simp only [remember, hstep] at hnext ⊢
    exact hs.of_extends hnext rfl (fun _ => rfl) hext
  · have hstep : s.step (.openHandle name what) =
        ({ s with
            host := opened.closing ((s.handles.lookup name).elim [] Handle.descriptors)
            handles := s.handles.insert name h },
          ⟨.ok .done, records⟩) := by
      simp only [Session.step, Request.act, run_bind, hrun, Handles.run_release, run_pure,
        List.append_nil]
    simp only [remember, hstep] at hnext ⊢
    exact hs.of_opening (by rw [hrun]) (by rw [hrun]) hnext rfl rfl rfl

theorem step_call (hs : s.Sourced known) (name : String) (what : Call) :
    (s.step (.call name what)).1.Sourced known := by
  have hnext := hs.accounted.step (.call name what)
  cases hlook : s.handles.lookup name with
  | none =>
    have hact : (Request.call name what).act s.tree s.handles =
        (do let reply ← pure Reply.noHandle; return (reply, s.handles)) := by
      simp only [Request.act, hlook]
      rfl
    exact hs.of_keeps hact (keeps_pure _)
  | some h =>
    by_cases hclose : what = .close
    · subst hclose
      have hstep := step_close hlook
      rw [hstep] at hnext ⊢
      refine hs.of_closing hlook hnext rfl rfl (fun other hne => ?_) fun h' hlook' => ?_
      · exact s.handles.lookup_insert_of_ne _ hne
      · rw [Handles.lookup_insert] at hlook'
        exact (Option.some.inj hlook').symm
    · obtain ⟨a, hkeeps, hcall⟩ := h.call_eq hclose
      have hext := (hkeeps []).extends s.host
      rcases hrun : a.run s.host with ⟨e | reply, next, records⟩
      · have hstep : s.step (.call name what) =
            ({ s with host := next }, ⟨.error e, records⟩) := by
          simp only [Session.step, Request.act, hlook, hcall, run_bind, hrun]
        rw [hrun] at hext
        rw [hstep] at hnext ⊢
        exact hs.of_extends hnext rfl (fun _ => rfl) hext
      · have hstep : s.step (.call name what) =
            ({ s with host := next, handles := s.handles.insert name h },
              ⟨.ok reply, records⟩) := by
          simp only [Session.step, Request.act, hlook, hcall, run_bind, hrun, run_pure,
            List.append_nil]
        rw [hrun] at hext
        rw [hstep] at hnext ⊢
        exact hs.of_extends hnext rfl (Handles.lookup_insert_self_eq hlook) hext

theorem step_drop (hs : s.Sourced known) (name : String) :
    (s.step (.drop name)).1.Sourced known := by
  have hnext := hs.accounted.step (.drop name)
  cases hlook : s.handles.lookup name with
  | none =>
    have hstep : (s.step (.drop name)).1 = { s with handles := s.handles.erase name } := by
      simp only [Session.step, Request.act, run_bind, Handles.run_release, run_pure, hlook,
        Option.elim, Host.closing_nil]
    rw [hstep] at hnext ⊢
    refine hs.of_extends hnext rfl (fun other => ?_) (.refl _)
    exact congrArg _ (Handles.erase_of_lookup_none hlook)
  | some h =>
    have hstep := Session.step_drop hlook
    rw [hstep] at hnext ⊢
    refine hs.of_closing hlook hnext rfl rfl (fun other hne => ?_) fun h' hlook' => ?_
    · exact s.handles.lookup_erase_of_ne hne
    · rw [Handles.lookup_erase_self] at hlook'
      cases hlook'

/-- Every request keeps track of where handles come from. -/
theorem step (hs : s.Sourced known) (r : Request) :
    (s.step r).1.Sourced (s.remember known (.request r)) := by
  cases r with
  | query q => exact hs.of_keeps rfl (q.keeps_act s.tree)
  | oneShot o => exact hs.of_keeps rfl (o.keeps_act s.tree)
  | edit e => exact hs.of_keeps rfl (keeps_edit e)
  | contents route => exact hs.of_keeps rfl (keeps_query _)
  | openDescriptors => exact hs.of_keeps rfl (keeps_observe _)
  | openHandle name what => exact hs.step_openHandle name what
  | call name what => exact hs.step_call name what
  | drop name => exact hs.step_drop name

end Sourced

/-- What others do to the file system is no matter. -/
theorem Sourced.happen (hs : s.Sourced known) (e : Event) :
    (s.happen e).Sourced (s.remember known e) := by
  cases e with
  | request r => exact hs.step r
  | disturbance files =>
    exact hs.of_extends ⟨hs.accounted.names, hs.accounted.owns.of_descriptors_eq rfl⟩ rfl
      (fun _ => rfl) (.refl _)

theorem Sourced.after (hs : s.Sourced known) (events : List Event) :
    (s.after events).Sourced (s.origins known events) := by
  induction events generalizing s known with
  | nil => exact hs
  | cons e rest ih => exact ih (hs.happen e)

/-- Whatever happens, every handle is open where it was opened. -/
theorem sourced_after (t : Tree) (files : FileSystem) (events : List Event) :
    ((start t files).after events).Sourced
      ((start t files).origins (fun _ => none) events) := by
  have hstart : (start t files).Sourced fun _ => none := ⟨accounted_start t files, nofun⟩
  exact hstart.after events

end Session

end PowerZones
