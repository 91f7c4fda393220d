import PowerZones.Proofs.Entity.Closing
import PowerZones.Proofs.Rapl.Survey
import PowerZones.Session.Step

/-!
# Actions that touch no file

Nearly everything that can be done leaves all files as they are: only to write a
number may change one.

* **`Action.Still`**: whatever the action comes to, the file system stays as it is.
  What realizes a survey is still (**`Action.still_of_realizes`**), and so is what is
  silent: reading and reporting, through a handle or once.
* **`Action.Writes`** is what writing a number to a node may do, and
  **`Tree.writes_writeNumber`**, **`Slot.writes_writeNumber`** say which node it is.
-/

namespace PowerZones

namespace Action

variable {α β : Type}

/-! ## Silence -/

theorem silent_pure (x : α) : (pure x : Action α).Silent :=
  ⟨fun _ => rfl, fun _ => rfl⟩

theorem silent_fail (e : Failure) : (fail e : Action α).Silent :=
  ⟨fun _ => rfl, fun _ => rfl⟩

theorem silent_observe (look : Host → Except Failure α) : (observe look).Silent :=
  ⟨fun _ => rfl, fun _ => rfl⟩

theorem silent_ofExcept (r : Except Failure α) : (ofExcept r).Silent :=
  ⟨fun host => by rw [run_ofExcept], fun host => by rw [run_ofExcept]⟩

theorem Silent.map {a : Action α} (f : α → β) (ha : a.Silent) : (f <$> a).Silent := by
  rw [← bind_pure_comp]
  exact ha.bind fun x => silent_pure (f x)

theorem Silent.attempt {a : Action α} (ha : a.Silent) : a.attempt.Silent :=
  ⟨ha.files, ha.records⟩

/-- What only looks, and makes no records on the way, is silent. -/
theorem silent_of_realizes {a : Action α} {find : FileSystem → Except Failure β}
    {R : Descriptors → α → β → Prop} (h : ∀ host, a.Realizes host (.look find) R) : a.Silent :=
  ⟨fun host => (h host).files, fun host => (h host).records⟩

theorem silent_readNumber (id : DescriptorId) : (readNumber id).Silent :=
  silent_observe _

theorem silent_readText (id : DescriptorId) (size : Nat) : (readText id size).Silent := by
  unfold readText
  split
  · exact silent_fail _
  · exact silent_observe _

/-! ## Stillness -/

/-- The action leaves every file as it is. -/
def Still (a : Action α) : Prop :=
  ∀ host, (a.run host).host.files = host.files

theorem Silent.still {a : Action α} (ha : a.Silent) : a.Still :=
  ha.files

/-- What realizes a survey only looks. -/
theorem still_of_realizes {a : Action α} {s : Survey β} {R : Descriptors → α → β → Prop}
    (h : ∀ host, a.Realizes host s R) : a.Still :=
  fun host => (h host).files

theorem still_note (logger : Logger) (severity : Severity) (text : String) :
    (note logger severity text).Still :=
  fun _ => rfl

theorem Still.bind {a : Action α} {f : α → Action β} (ha : a.Still) (hf : ∀ x, (f x).Still) :
    (a >>= f).Still := by
  intro host
  have hfirst := ha host
  rw [run_bind]
  rcases hrun : a.run host with ⟨_ | x, next, records⟩
  · rw [hrun] at hfirst
    exact hfirst
  · rw [hrun] at hfirst
    exact (hf x next).trans hfirst

/-- The answer to what is still may be worded in any way. -/
theorem Still.returns {a : Action α} (ha : a.Still) (f : α → β) :
    (do let x ← a; return f x : Action β).Still :=
  ha.bind fun x => (silent_pure (f x)).still

theorem Still.map {a : Action α} (f : α → β) (ha : a.Still) : (f <$> a).Still := by
  rw [← bind_pure_comp]
  exact ha.returns f

end Action

open PowerZones.Action

/-! ## Reading -/

theorem Slot.silent_readNumber (slot : Slot) : slot.readNumber.Silent := by
  cases slot with
  | absent => exact silent_fail _
  | opened id path grant => exact Action.silent_readNumber id

theorem Slot.silent_readName (slot : Slot) : slot.readName.Silent := by
  cases slot with
  | absent => exact silent_fail _
  | opened id path grant => exact silent_readText id _

theorem Tree.silent_readNumber (t : Tree) (a : Address) (attr : Attribute) :
    (t.readNumber a attr).Silent :=
  silent_of_realizes fun _ => t.realizes_readNumber a attr

theorem Tree.silent_readName (t : Tree) (a : Address) (attr : Attribute) :
    (t.readName a attr).Silent :=
  silent_of_realizes fun _ => t.realizes_readName a attr

/-! ## Reports -/

theorem Slots.silent_report {α : Type} (name : α → String) (slots : Slots α) :
    (slots.report name).Silent := by
  induction slots with
  | nil => exact silent_pure _
  | cons s rest ih =>
    exact s.2.silent_readNumber.attempt.bind fun _ => ih.bind fun _ => silent_pure _

theorem Zone.silent_report (z : Zone) : z.report.Silent :=
  (Slots.silent_report _ _).bind fun _ => silent_pure _

theorem Constraint.silent_report (c : Constraint) : c.report.Silent :=
  (Slots.silent_report _ _).bind fun _ => silent_pure _

theorem Package.silent_reportTerms (p : Package) (k : Domain) (terms : List Term) :
    (p.reportTerms k terms).Silent := by
  induction terms with
  | nil => exact silent_pure _
  | cons term rest ih =>
    have hterm : (p.withConstraint k term Constraint.report).Silent :=
      (silent_ofExcept _).bind Constraint.silent_report
    exact hterm.attempt.bind fun _ => ih.bind fun _ => silent_pure _

theorem Package.silent_reportDomains (p : Package) (ks : List Domain) :
    (p.reportDomains ks).Silent := by
  induction ks with
  | nil => exact silent_pure _
  | cons k rest ih =>
    have hzone : (p.withZone k Zone.report).Silent :=
      (silent_ofExcept _).bind Zone.silent_report
    exact hzone.attempt.bind fun _ =>
      (p.silent_reportTerms k _).bind fun _ => ih.bind fun _ => silent_pure _

theorem Handle.silent_report (h : Handle) : h.report.Silent := by
  cases h with
  | controlType c => exact silent_pure _
  | zone z => exact z.silent_report.map _
  | constraint c => exact c.silent_report.map _
  | package p => exact (p.silent_reportDomains _).map _

/-! ## Asking, opening, closing -/

theorem Tree.still_packageCount (t : Tree) : t.packageCount.Still := by
  refine (silent_observe _).still.bind fun count => ?_
  split
  · exact (still_note _ _ _).bind fun _ => (silent_fail _).still
  · exact (silent_pure _).still

theorem Query.silent_act (t : Tree) (q : Query) : (q.act t).Silent := by
  cases q <;> exact Silent.map _ (by first | exact silent_ofExcept _ | exact silent_observe _)

theorem Opening.still_act (t : Tree) (what : Opening) : (what.act t).Still := by
  cases what with
  | controlType name readOnly =>
    exact (still_of_realizes (t.realizes_openControlType readOnly · name)).map _
  | zone a readOnly => exact (still_of_realizes (t.realizes_openZone a readOnly)).map _
  | constraint a number readOnly =>
    exact (still_of_realizes (t.realizes_openConstraint a readOnly · number)).map _
  | package id readOnly => exact (still_of_realizes (t.realizes_openPackage readOnly id)).map _

theorem Handles.silent_release (handles : Handles) (name : String) :
    (handles.release name).Silent :=
  silent_of_closing (handles.run_release name)

/-! ## Writing -/

namespace FileSystem

variable {fs fs' : FileSystem} {n m : NodeId} {v : UInt64}

/-- In the second file system, a number has been laid over the beginning of the
regular file at a place of the first, and nothing else is different. -/
def Stamped (fs : FileSystem) (n : NodeId) (v : UInt64) (fs' : FileSystem) : Prop :=
  ∃ permissions old, fs.node? n = some (.file permissions old) ∧
    fs' = fs.setNode n (.file permissions (Field.overwrite old (Field.stamp v)))

/-- What can be written is a regular file, or takes everything and keeps nothing. -/
theorem stamped_of_write (h : fs.write n (Field.stamp v) = .ok fs') :
    fs' = fs ∨ fs.Stamped n v fs' := by
  unfold write at h
  split at h
  case h_1 permissions old hnode => exact .inr ⟨permissions, old, hnode, (Except.ok.inj h).symm⟩
  case h_2 => exact .inl (Except.ok.inj h).symm
  all_goals cases h

/-- Every node but the one written to is the same. -/
theorem Stamped.node?_of_ne (h : fs.Stamped n v fs') (hne : m ≠ n) : fs'.node? m = fs.node? m := by
  obtain ⟨permissions, old, -, rfl⟩ := h
  exact Array.getElem?_setIfInBounds_ne (Ne.symm hne)

end FileSystem

namespace Action

variable {α β : Type} {a : Action α} {host : Host} {node node' : NodeId → Prop} {v : UInt64}

/-- Run on a host, the action fails and leaves the files as they are, or it
succeeds and has written the number to a node of that kind. -/
def Writes (a : Action α) (host : Host) (node : NodeId → Prop) (v : UInt64) : Prop :=
  match (a.run host).result with
  | .error _ => (a.run host).host.files = host.files
  | .ok _ => ∃ n, node n ∧ host.files.write n (Field.stamp v) = .ok (a.run host).host.files

theorem writes_fail (e : Failure) : (fail e : Action α).Writes host node v :=
  rfl

theorem Writes.imp (h : a.Writes host node v) (hnode : ∀ n, node n → node' n) :
    a.Writes host node' v := by
  unfold Writes at h ⊢
  split at h
  · exact h
  · exact h.imp fun n hn => ⟨hnode n hn.1, hn.2⟩

/-- What a descriptor writes, it writes to the node that it is open on. -/
theorem write_node_of_ok {id : DescriptorId} {bytes : List UInt8} {written : Host}
    (h : host.write id bytes = .ok written) :
    ∃ n access, host.descriptors.find? id = some ⟨n, access⟩ ∧
      host.files.write n bytes = .ok written.files := by
  unfold Host.write at h
  cases hid : host.descriptors.find? id with
  | none => simp [hid] at h
  | some file =>
    simp only [hid] at h
    split at h
    · cases hfs : host.files.write file.node bytes with
      | error e => rw [hfs] at h; cases h
      | ok fs => rw [hfs] at h; cases h; exact ⟨file.node, file.access, rfl, hfs⟩
    · cases h

/-- Through a descriptor, a number gets to the node that it is open on. -/
theorem writes_writeNumber (id : DescriptorId) (v : UInt64) (host : Host) :
    (writeNumber id v).Writes host
      (fun n => ∃ access, host.descriptors.find? id = some ⟨n, access⟩) v := by
  unfold Writes
  cases hwrite : host.write id (Field.stamp v) with
  | error e =>
    have hrun : (writeNumber id v).run host = ⟨.error (.system e), host, []⟩ := by
      simp only [writeNumber, hwrite]
    rw [hrun]
  | ok written =>
    have hrun : (writeNumber id v).run host = ⟨.ok (), written, []⟩ := by
      simp only [writeNumber, hwrite]
    obtain ⟨n, access, hfind, hfiles⟩ := write_node_of_ok hwrite
    rw [hrun]
    exact ⟨n, ⟨access, hfind⟩, hfiles⟩

/-- Through a path, a number gets to the node that it leads to. -/
theorem writes_withFile (path : String) (v : UInt64) (host : Host) :
    (withFile path .write fun id => writeNumber id v).Writes host
      (fun n => host.files.access path .write = .ok n) v := by
  unfold Writes
  rw [run_withFile]
  cases hnode : host.files.access path .write with
  | error e =>
    simp only [FileSystem.nodeFor, hnode]
    rfl
  | ok n =>
    have hused := writes_writeNumber host.descriptors.next v (host.opening n .write)
    simp only [FileSystem.nodeFor, hnode, Except.mapError, Host.closing_files]
    unfold Writes at hused
    split at hused
    · exact hused
    · -- the descriptor that was opened for this is open on that node
      obtain ⟨n', ⟨access, hfind⟩, hwrite⟩ := hused
      rw [Host.opening, Descriptors.find?_add_self] at hfind
      cases hfind
      exact ⟨n, rfl, hwrite⟩

end Action

/-- Writing an attribute once gets to the node that its path leads to, if it is
one that may be written. -/
theorem Tree.writes_writeNumber (t : Tree) (a : Address) (attr : Attribute) (v : UInt64)
    (host : Host) : (t.writeNumber a attr v).Writes host
      (fun n => attr.writable = true ∧ ∃ path, t.attributePath a attr = .ok path ∧
        host.files.access path .write = .ok n) v := by
  unfold Tree.writeNumber
  split
  next hattr =>
    cases hpath : t.attributePath a attr with
    | error e => exact writes_fail e
    | ok path =>
      exact (Action.writes_withFile path v host).imp fun n hn => ⟨hattr, path, rfl, hn⟩
  next => exact writes_fail _

/-- Writing to a slot gets to the node that its descriptor is open on, if it is
open for writing too. -/
theorem Slot.writes_writeNumber (slot : Slot) (v : UInt64) (host : Host) :
    (slot.writeNumber v).Writes host
      (fun n => ∃ id path access, slot = .opened id path .readWrite ∧
        host.descriptors.find? id = some ⟨n, access⟩) v := by
  cases slot with
  | absent => exact writes_fail _
  | opened id path grant =>
    by_cases hgrant : grant = .readWrite
    · have hslot : (Slot.opened id path grant).writeNumber v = Action.writeNumber id v :=
        if_pos hgrant
      rw [hslot]
      exact (Action.writes_writeNumber id v host).imp fun n ⟨access, hfind⟩ =>
        ⟨id, path, access, hgrant ▸ rfl, hfind⟩
    · have hslot : (Slot.opened id path grant).writeNumber v =
          fail (.permissionDenied path .openedReadOnly) := if_neg hgrant
      rw [hslot]
      exact writes_fail _

end PowerZones
