import PowerZones.Action
import PowerZones.Proofs.Keyed

/-!
# Surveys

What most actions come to is decided by the file system alone, and the
descriptors that they open on the way only serve to look at it. A survey says
what there is to be found, without any descriptor:

* **`Survey`** is a result or a failure, and records, for each file system;
* **`Action.Realizes`**: on a host, an action finds what a survey says, leaves the
  files as they are, closes no descriptor of others, and what it returns goes
  with what the survey returns;
* one rule for each way of putting actions together.

The relation between the two results sees the descriptors that are open at the
end, so it can say that a slot is open on the node that the survey names.
-/

namespace PowerZones

/-- What is found by looking at a file system. -/
structure Survey (α : Type) where
  result : FileSystem → Except Failure α
  records : FileSystem → List Record

namespace Survey

variable {α β : Type}

/-- Finds what is told, without a record. -/
def look (find : FileSystem → Except Failure α) : Survey α where
  result := find
  records _ := []

protected def pure (x : α) : Survey α :=
  look fun _ => .ok x

/-- Finds something, and then what follows from it. -/
protected def bind (a : Survey α) (f : α → Survey β) : Survey β where
  result fs :=
    match a.result fs with
    | .ok x => (f x).result fs
    | .error e => .error e
  records fs :=
    match a.result fs with
    | .ok x => a.records fs ++ (f x).records fs
    | .error _ => a.records fs

instance : Monad Survey where
  pure := Survey.pure
  bind := Survey.bind

/-- Finds a failure. -/
def fail (e : Failure) : Survey α :=
  look fun _ => .error e

/-- Finds what was found before. -/
def ofExcept (r : Except Failure α) : Survey α :=
  look fun _ => r

/-- Makes a record, as far as the logger lets it pass. -/
def note (logger : Logger) (severity : Severity) (text : String) : Survey Unit where
  result _ := .ok ()
  records _ := logger.filter ⟨severity, text⟩

variable {fs : FileSystem}

@[simp] theorem result_pure (x : α) : (pure x : Survey α).result fs = .ok x := rfl

@[simp] theorem result_look (find : FileSystem → Except Failure α) :
    (look find).result fs = find fs := rfl

@[simp] theorem result_ofExcept (r : Except Failure α) : (ofExcept r).result fs = r := rfl

/-- The result of a sequence is the sequence of the results. -/
@[simp] theorem result_bind (a : Survey α) (f : α → Survey β) :
    (a >>= f).result fs = (a.result fs).bind fun x => (f x).result fs := by
  show (match a.result fs with | .ok x => (f x).result fs | .error e => .error e) = _
  cases a.result fs <;> rfl

/-- A sequence finds something where both of its parts do. -/
theorem result_bind_eq_ok {a : Survey α} {f : α → Survey β} {y : β} :
    (a >>= f).result fs = .ok y ↔ ∃ x, a.result fs = .ok x ∧ (f x).result fs = .ok y := by
  rw [result_bind]
  cases a.result fs with
  | error e => exact ⟨nofun, fun ⟨_, hx, _⟩ => nomatch hx⟩
  | ok x => exact ⟨fun h => ⟨x, rfl, h⟩, fun ⟨_, hx, h⟩ => by cases hx; exact h⟩

theorem records_bind (a : Survey α) (f : α → Survey β) :
    (a >>= f).records fs =
      match a.result fs with
      | .ok x => a.records fs ++ (f x).records fs
      | .error _ => a.records fs := rfl

theorem bind_pure (a : Survey α) : (a >>= fun x => pure x) = a := by
  have hresult : (a >>= fun x => pure x).result = a.result := by
    funext fs
    rw [result_bind]
    cases a.result fs <;> rfl
  have hrecords : (a >>= fun x => pure x).records = a.records := by
    funext fs
    rw [records_bind]
    cases a.result fs with
    | ok x => exact List.append_nil _
    | error e => rfl
  calc (a >>= fun x => pure x)
      = ⟨(a >>= fun x => pure x).result, (a >>= fun x => pure x).records⟩ := rfl
    _ = a := by rw [hresult, hrecords]

end Survey

/-- All that is open in the first is open, on the same node, in the second. -/
def Descriptors.Extends (ds ds' : Descriptors) : Prop :=
  ∀ id file, ds.find? id = some file → ds'.find? id = some file

namespace Descriptors

theorem Extends.refl (ds : Descriptors) : ds.Extends ds :=
  fun _ _ h => h

theorem Extends.trans {ds ds' ds'' : Descriptors} (h : ds.Extends ds') (h' : ds'.Extends ds'') :
    ds.Extends ds'' :=
  fun id file hid => h' id file (h id file hid)

/-- What is open has a number that was given out. -/
theorem lt_next_of_find? {ds : Descriptors} {id : DescriptorId} {file : OpenFile}
    (h : ds.find? id = some file) : id < ds.next :=
  ds.lt_next_of_mem (Keyed.mem_of_lookup h)

theorem extends_add (ds : Descriptors) (file : OpenFile) : ds.Extends (ds.add file) := by
  intro id other h
  rw [ds.find?_add_of_lt file (lt_next_of_find? h)]
  exact h

/-- A descriptor that is closed right after it was opened leaves no trace but
the number it used up. -/
theorem extends_erase_add (ds : Descriptors) (file : OpenFile) :
    ds.Extends ((ds.add file).erase ds.next) := by
  have hfresh : ds.next ∉ ds.entries.map Prod.fst := by
    intro hmem
    obtain ⟨e, he, hid⟩ := List.mem_map.mp hmem
    exact Nat.lt_irrefl _ (hid ▸ ds.fresh e he)
  intro id other h
  have hentries : ((ds.add file).erase ds.next).entries = ds.entries := by
    show ((ds.next, file) :: ds.entries).filter (fun e => e.1 ≠ ds.next) = ds.entries
    rw [List.filter_cons_of_neg (by simp)]
    exact Keyed.filter_of_not_mem hfresh
  rw [find?, hentries]
  exact h

end Descriptors

namespace Action

variable {α β γ δ : Type}

/-- Two results go together: values in a relation, or the same failure. -/
def SameEnd (R : α → β → Prop) : Except Failure α → Except Failure β → Prop
  | .ok x, .ok y => R x y
  | .error e, .error e' => e = e'
  | _, _ => False

theorem SameEnd.mono {R R' : α → β → Prop} {x : Except Failure α} {y : Except Failure β}
    (h : SameEnd R x y) (hR : ∀ x y, R x y → R' x y) : SameEnd R' x y := by
  cases x <;> cases y
  · exact h
  · exact h
  · exact h
  · exact hR _ _ h

/-- On a host, an action finds what a survey says. -/
structure Realizes (a : Action α) (host : Host) (s : Survey β) (R : Descriptors → α → β → Prop) :
    Prop where
  files : (a.run host).host.files = host.files
  records : (a.run host).records = s.records host.files
  result : SameEnd
    (fun x y => host.descriptors.Extends (a.run host).host.descriptors ∧
      R (a.run host).host.descriptors x y)
    (a.run host).result (s.result host.files)

variable {host : Host} {R : Descriptors → α → β → Prop} {S : Descriptors → γ → δ → Prop}

/-- What leaves the host as it is and says what the survey says realizes it. -/
theorem realizes_of_run {a : Action α} {s : Survey β} {records : List Record}
    {result : Except Failure α} (hrun : a.run host = ⟨result, host, records⟩)
    (hrecords : records = s.records host.files)
    (hresult : SameEnd (R host.descriptors) result (s.result host.files)) :
    a.Realizes host s R := by
  refine ⟨by rw [hrun], by rw [hrun, hrecords], ?_⟩
  rw [hrun]
  exact hresult.mono fun _ _ hR => ⟨.refl _, hR⟩

theorem realizes_pure {x : α} {y : β} (h : R host.descriptors x y) :
    (pure x : Action α).Realizes host (pure y) R :=
  realizes_of_run (run_pure host x) rfl h

theorem realizes_fail (e : Failure) : (fail e : Action α).Realizes host (Survey.fail e) R :=
  realizes_of_run (run_fail host e) rfl rfl

theorem realizes_ofExcept (r : Except Failure α) :
    (ofExcept r).Realizes host (Survey.ofExcept r) fun _ x y => x = y := by
  refine realizes_of_run (run_ofExcept host r) rfl ?_
  cases r <;> rfl

theorem realizes_query (find : FileSystem → Except Failure α) :
    (query find).Realizes host (Survey.look find)
      fun _ x y => x = y ∧ find host.files = .ok y := by
  refine realizes_of_run (run_query host find) rfl ?_
  rw [Survey.result_look]
  cases find host.files with
  | error e => rfl
  | ok x => exact ⟨rfl, rfl⟩

/-- A descriptor newly opened stands on its node. -/
theorem realizes_openNode (node : NodeId) (access : Access) :
    (openNode node access).Realizes host (pure ())
      fun ds id _ => ds.find? id = some ⟨node, access⟩ :=
  ⟨rfl, rfl, host.descriptors.extends_add _, Descriptors.find?_add_self _ _⟩

theorem realizes_note (logger : Logger) (severity : Severity) (text : String) :
    (note logger severity text).Realizes host (Survey.note logger severity text)
      fun _ x y => x = y :=
  realizes_of_run (run_note host logger severity text) rfl rfl

/-- Sequences find what their parts find. The second part starts where the
first ended, with all of its descriptors. -/
theorem Realizes.bind {a : Action α} {s : Survey β} {f : α → Action γ} {g : β → Survey δ}
    (ha : a.Realizes host s R)
    (hf : ∀ x y next, next.files = host.files → host.descriptors.Extends next.descriptors →
      R next.descriptors x y → (f x).Realizes next (g y) S) :
    (a >>= f).Realizes host (s >>= g) S := by
  obtain ⟨hfiles, hrecords, hresult⟩ := ha
  rcases hrun : a.run host with ⟨result, next, records⟩
  rw [hrun] at hfiles hrecords hresult
  simp only at hfiles hrecords
  -- action and survey end the same way, so both go on or neither does
  cases result with
  | error e =>
    cases hs : s.result host.files with
    | ok y => rw [hs] at hresult; exact hresult.elim
    | error e' =>
      rw [hs] at hresult
      refine ⟨?_, ?_, ?_⟩
      · rw [run_bind, hrun]; exact hfiles
      · rw [run_bind, hrun, Survey.records_bind, hs]; exact hrecords
      · rw [run_bind, hrun, Survey.result_bind, hs]; exact hresult
  | ok x =>
    cases hs : s.result host.files with
    | error e' => rw [hs] at hresult; exact hresult.elim
    | ok y =>
      rw [hs] at hresult
      obtain ⟨hextends, hR⟩ := hresult
      obtain ⟨hfiles', hrecords', hresult'⟩ := hf x y next hfiles hextends hR
      refine ⟨?_, ?_, ?_⟩
      · rw [run_bind, hrun]; exact hfiles'.trans hfiles
      · rw [run_bind, hrun, Survey.records_bind, hs]
        simp only
        rw [hrecords, hrecords', hfiles]
      · rw [run_bind, hrun, Survey.result_bind, hs]
        simp only [Except.bind]
        rw [hfiles] at hresult'
        exact hresult'.mono fun _ _ hS => ⟨hextends.trans hS.1, hS.2⟩

/-- An action may dress its result up. -/
theorem Realizes.returns {a : Action α} {s : Survey β} {f : α → γ}
    {R' : Descriptors → γ → β → Prop} (ha : a.Realizes host s R)
    (hf : ∀ ds x y, R ds x y → R' ds (f x) y) :
    (do let x ← a; return f x : Action γ).Realizes host s R' := by
  rw [← Survey.bind_pure s]
  exact ha.bind fun _ _ _ _ _ h => realizes_pure (hf _ _ _ h)

/-- An action touches no file and makes no record. -/
structure Silent (a : Action α) : Prop where
  files : ∀ host, (a.run host).host.files = host.files
  records : ∀ host, (a.run host).records = []

theorem Silent.bind {a : Action α} {f : α → Action γ} (ha : a.Silent) (hf : ∀ x, (f x).Silent) :
    (a >>= f).Silent := by
  have hboth (host : Host) : ((a >>= f).run host).host.files = host.files ∧
      ((a >>= f).run host).records = [] := by
    have hfiles := ha.files host
    have hrecords := ha.records host
    rw [run_bind]
    rcases hrun : a.run host with ⟨_ | x, next, records⟩
    · rw [hrun] at hfiles hrecords
      exact ⟨hfiles, hrecords⟩
    · rw [hrun] at hfiles hrecords
      obtain rfl : records = [] := hrecords
      exact ⟨((hf x).files next).trans hfiles, (hf x).records next⟩
  exact ⟨fun host => (hboth host).1, fun host => (hboth host).2⟩

/-- A silent cleanup goes unnoticed. -/
theorem Realizes.onFailure {a : Action α} {s : Survey β} {cleanup : Action Unit}
    (ha : a.Realizes host s R) (hc : cleanup.Silent) :
    (a.onFailure cleanup).Realizes host s R := by
  obtain ⟨hfiles, hrecords, hresult⟩ := ha
  rcases hrun : a.run host with ⟨_ | x, next, records⟩
  · -- the action failed, so the cleanup runs on the host that it left
    rw [hrun] at hfiles hrecords hresult
    refine ⟨?_, ?_, ?_⟩
    · simp only [Action.onFailure, hrun]
      exact (hc.files next).trans hfiles
    · simp only [Action.onFailure, hrun, hc.records next, List.append_nil]
      exact hrecords
    · simp only [Action.onFailure, hrun]
      cases hs : s.result host.files with
      | ok y => rw [hs] at hresult; exact hresult.elim
      | error e => rw [hs] at hresult; exact hresult
  · rw [hrun] at hfiles hrecords hresult
    refine ⟨?_, ?_, ?_⟩ <;> simp only [Action.onFailure, hrun]
    · exact hfiles
    · exact hrecords
    · exact hresult

/-- Where an action realizes a survey up to equality, both have the same result. -/
theorem Realizes.result_eq {a : Action α} {s : Survey α}
    (ha : a.Realizes host s fun _ x y => x = y) : (a.run host).result = s.result host.files := by
  have h := ha.result
  revert h
  cases (a.run host).result <;> cases s.result host.files <;> intro h
  · exact congrArg _ h
  · exact h.elim
  · exact h.elim
  · exact congrArg _ h.2

/-- An action that has a result goes with a survey that has one. -/
theorem Realizes.of_ok {a : Action α} {s : Survey β} (ha : a.Realizes host s R) {x : α}
    (h : (a.run host).result = .ok x) :
    ∃ y, s.result host.files = .ok y ∧ R (a.run host).host.descriptors x y := by
  have hresult := ha.result
  rw [h] at hresult
  cases hs : s.result host.files with
  | error e => rw [hs] at hresult; exact hresult.elim
  | ok y => rw [hs] at hresult; exact ⟨y, rfl, hresult.2⟩

/-- A survey that has a result goes with an action that has one. -/
theorem Realizes.exists_ok_iff {a : Action α} {s : Survey β} (ha : a.Realizes host s R) :
    (∃ x, (a.run host).result = .ok x) ↔ ∃ y, s.result host.files = .ok y := by
  refine ⟨fun ⟨x, hx⟩ => (ha.of_ok hx).imp fun _ h => h.1, fun ⟨y, hy⟩ => ?_⟩
  have hresult := ha.result
  rw [hy] at hresult
  cases hr : (a.run host).result with
  | error e => rw [hr] at hresult; exact hresult.elim
  | ok x => exact ⟨x, rfl⟩

/-- Where a survey has a result, the run of an action that realizes it goes with it. -/
theorem Realizes.exists_run {a : Action α} {s : Survey β} (ha : a.Realizes host s R) {y : β}
    (hy : s.result host.files = .ok y) :
    ∃ x next, a.run host = ⟨.ok x, next, s.records host.files⟩ ∧ next.files = host.files ∧
      host.descriptors.Extends next.descriptors ∧ R next.descriptors x y := by
  obtain ⟨x, hx⟩ := ha.exists_ok_iff.mpr ⟨y, hy⟩
  have hresult := ha.result
  rw [hx, hy] at hresult
  refine ⟨x, _, ?_, ha.files, hresult⟩
  rw [← hx, ← ha.records]

/-- An action fails as the survey that it realizes does. -/
theorem Realizes.error_iff {a : Action α} {s : Survey β} (ha : a.Realizes host s R)
    {e : Failure} : (a.run host).result = .error e ↔ s.result host.files = .error e := by
  have hresult := ha.result
  revert hresult
  cases (a.run host).result <;> cases s.result host.files <;> intro hresult
  · obtain rfl : _ = _ := hresult
    rw [Except.error.injEq, Except.error.injEq]
  · exact hresult.elim
  · exact hresult.elim
  · exact ⟨nofun, nofun⟩

end Action

/-! ## Failures -/

/-- The failure that a result is, if it is one. -/
def failureOf {α : Type} : Except Failure α → Option Failure
  | .ok _ => none
  | .error e => some e

theorem failureOf_eq_some_iff {α : Type} {r : Except Failure α} {e : Failure} :
    failureOf r = some e ↔ r = .error e := by
  cases r <;> simp [failureOf]

theorem failureOf_eq_none_iff {α : Type} {r : Except Failure α} :
    failureOf r = none ↔ ∃ x, r = .ok x := by
  cases r <;> simp [failureOf]

/-- A sequence fails with the failure of its first part, or else with that of the
second. -/
theorem Survey.failureOf_bind {α β : Type} {a : Survey α} {f : α → Survey β} {fs : FileSystem}
    {rest : Option Failure} (h : ∀ x, a.result fs = .ok x → failureOf ((f x).result fs) = rest) :
    failureOf ((a >>= f).result fs) = (failureOf (a.result fs)).or rest := by
  rw [result_bind]
  cases hx : a.result fs with
  | error e => rfl
  | ok x => exact h x hx

/-- To dress a result up is no reason to fail. -/
theorem Survey.failureOf_returns {α β : Type} {a : Survey α} {f : α → β} {fs : FileSystem} :
    failureOf ((a >>= fun x => pure (f x)).result fs) = failureOf (a.result fs) := by
  rw [result_bind]
  cases a.result fs <;> rfl

/-- What realizes a survey fails with its failure. -/
theorem Action.Realizes.failureOf_eq {α β : Type} {a : Action α} {host : Host} {s : Survey β}
    {R : Descriptors → α → β → Prop} (h : a.Realizes host s R) :
    failureOf (a.run host).result = failureOf (s.result host.files) := by
  refine Option.ext fun e => ?_
  rw [failureOf_eq_some_iff, failureOf_eq_some_iff, h.error_iff]

end PowerZones
