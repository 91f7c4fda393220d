import PowerZones.Proofs.Action.Survey

/-!
# Attempts and their records

Some things are tried one after the other until one fails. An account says what each of
them comes to: a record or none, and a failure or none. What is on record at the end is
then the records of all that passed, and that of the one that failed.

* **`Account.Runs`** is such a run, and **`Account.Exact`** what makes an account of use:
  an attempt comes to one thing only, and those that fail with an error on record are told
  beforehand;
* **`Account.Runs.blamed`**, **`Account.Runs.clear`**: there is an error on record just if
  one of those is reached, and it is the last record;
* **`Survey.Follows`**: a survey makes the records of a run and fails with its failure, with
  one rule for each way of putting surveys together;
* **`Account.Diagnosed`** is all of this about the outcome of an action.
-/

namespace PowerZones

/-- What each of some attempts comes to: a record or none, and a failure or none. -/
abbrev Account (α : Type) := α → Option Record → Option Failure → Prop

namespace Account

variable {α : Type} (A : Account α)

/-- Attempts are made in order, up to the first that fails: the records that they leave,
and the failure. -/
inductive Runs : List α → List Record → Option Failure → Prop
  | done : Runs [] [] none
  | stop {x : α} {rest : List α} {r : Option Record} {e : Failure} (h : A x r (some e)) :
    Runs (x :: rest) r.toList (some e)
  | step {x : α} {rest : List α} {r : Option Record} {records : List Record}
    {e? : Option Failure} (h : A x r none) (hrest : Runs rest records e?) :
    Runs (x :: rest) (r.toList ++ records) e?

/-- An attempt passes, with or without a record. -/
def Passes (x : α) : Prop :=
  ∃ r, A x r none

/-- Of some attempts, the first that does not pass is grave and fails so. -/
def Blames (grave : α → Failure → Prop) (xs : List α) (e : Failure) : Prop :=
  ∃ before x after, xs = before ++ x :: after ∧ (∀ y ∈ before, A.Passes y) ∧ grave x e

/-- An attempt comes to one thing only. It is grave just if it fails and leaves an error on
record; what passes leaves none. -/
structure Exact (grave : α → Failure → Prop) : Prop where
  unique : ∀ {x r r' e? e?'}, A x r e? → A x r' e?' → r = r' ∧ e? = e?'
  grave_iff : ∀ {x e}, grave x e ↔ ∃ r, A x (some r) (some e) ∧ r.severity = .error
  passing : ∀ {x r}, A x (some r) none → r.severity ≠ .error

/-- The records end with an error, and have no other. -/
def EndsInError (records : List Record) : Prop :=
  ∃ before last, records = before ++ [last] ∧ last.severity = .error ∧
    ∀ r ∈ before, r.severity ≠ .error

variable {A} {grave : α → Failure → Prop} {xs ys : List α} {records records' : List Record}
  {e? : Option Failure} {e : Failure} {x : α} {r : Option Record}

namespace Runs

theorem append (h : A.Runs xs records none) (h' : A.Runs ys records' e?) :
    A.Runs (xs ++ ys) (records ++ records') e? := by
  generalize hnone : (none : Option Failure) = e?' at h
  induction h with
  | done => exact h'
  | stop => cases hnone
  | step hx _ ih =>
    rw [List.append_assoc]
    exact .step hx (ih hnone)

/-- What comes after a failure is not tried. -/
theorem append_of_error (h : A.Runs xs records (some e)) (ys : List α) :
    A.Runs (xs ++ ys) records (some e) := by
  generalize hsome : some e = e?' at h
  induction h with
  | done => cases hsome
  | stop hx => exact .stop hx
  | step hx _ ih => exact .step hx (ih hsome)

theorem single (h : A x r e?) : A.Runs [x] r.toList e? := by
  cases e? with
  | some e => exact .stop h
  | none => simpa using Runs.step h .done

/-- If a grave attempt is the first that does not pass, the run fails as it does, and the
records end with an error. -/
theorem blamed (hA : A.Exact grave) (h : A.Runs xs records e?) (hblames : A.Blames grave xs e) :
    e? = some e ∧ EndsInError records := by
  obtain ⟨before, x, after, rfl, hbefore, hgrave⟩ := hblames
  obtain ⟨r, hfails, hsevere⟩ := hA.grave_iff.mp hgrave
  induction before generalizing records with
  | nil =>
    cases h with
    | stop hx =>
      obtain ⟨rfl, he⟩ := hA.unique hx hfails
      exact ⟨he, [], r, rfl, hsevere, nofun⟩
    | step hx =>
      have he := (hA.unique hx hfails).2
      cases he
  | cons y before ih =>
    obtain ⟨hy, hbefore⟩ := List.forall_mem_cons.mp hbefore
    cases h with
    | stop hx =>
      obtain ⟨r', hpasses⟩ := hy
      have he := (hA.unique hx hpasses).2
      cases he
    | @step _ _ r' _ _ hx hrest =>
      obtain ⟨he, first, last, rfl, hlast, hfirst⟩ := ih hrest hbefore
      refine ⟨he, r'.toList ++ first, last, (List.append_assoc ..).symm, hlast, fun s hs => ?_⟩
      rcases List.mem_append.mp hs with hs | hs
      · obtain rfl := Option.mem_toList.mp hs
        exact hA.passing hx
      · exact hfirst s hs

/-- If there is none, the records have no error. -/
theorem clear (hA : A.Exact grave) (h : A.Runs xs records e?)
    (hno : ∀ e, ¬A.Blames grave xs e) : ∀ r ∈ records, r.severity ≠ .error := by
  induction h with
  | done => exact nofun
  | @stop x rest r e hx =>
    intro s hs hsevere
    obtain rfl := Option.mem_toList.mp hs
    exact hno e ⟨[], x, rest, rfl, nofun, hA.grave_iff.mpr ⟨s, hx, hsevere⟩⟩
  | @step x rest r records e? hx _ ih =>
    intro s hs
    rcases List.mem_append.mp hs with hs | hs
    · obtain rfl := Option.mem_toList.mp hs
      exact hA.passing hx
    · refine ih (fun e ⟨before, y, after, hsplit, hbefore, hgrave⟩ => hno e ?_) s hs
      exact ⟨x :: before, y, after, by rw [hsplit]; rfl,
        List.forall_mem_cons.mpr ⟨⟨r, hx⟩, hbefore⟩, hgrave⟩

end Runs

/-- The outcome of an action is that of a run: its records and its failure are those of the
attempts. It fails as the first attempt that does not pass, if that is grave, and then the
records end with an error; otherwise no error is on record. -/
structure Diagnosed {β : Type} (A : Account α) (grave : α → Failure → Prop) (xs : List α)
    (outcome : Outcome β) : Prop where
  run : A.Runs xs outcome.records (failureOf outcome.result)
  blamed : ∀ e, A.Blames grave xs e →
    outcome.result = .error e ∧ EndsInError outcome.records
  clear : (∀ e, ¬A.Blames grave xs e) → ∀ r ∈ outcome.records, r.severity ≠ .error

end Account

/-! ## Surveys -/

/-- On a file system, a survey makes the records of a run and fails with its failure. -/
def Survey.Follows {α β : Type} (A : Account α) (fs : FileSystem) (xs : List α) (s : Survey β) :
    Prop :=
  A.Runs xs (s.records fs) (failureOf (s.result fs))

namespace Survey

variable {α β γ : Type} {A : Account α} {fs : FileSystem} {xs ys : List α} {x : α}
  {r : Option Record} {e : Failure} {a : Survey β} {f : β → Survey γ}

theorem follows_pure (y : β) : (pure y : Survey β).Follows A fs [] := .done

/-- To look and find something is no attempt. -/
theorem follows_look {find : FileSystem → Except Failure β} {y : β} (h : find fs = .ok y) :
    (look find).Follows A fs [] := by
  rw [Follows, result_look, h]
  exact .done

/-- A survey that makes one attempt. -/
theorem follows_single (h : A x r (failureOf (a.result fs))) (hrecords : a.records fs = r.toList) :
    a.Follows A fs [x] := by
  rw [Follows, hrecords]
  exact .single h

/-- A survey that fails at the first attempt makes no other. -/
theorem follows_stop (h : A x r (some e)) (hresult : a.result fs = .error e)
    (hrecords : a.records fs = r.toList) : a.Follows A fs (x :: xs) := by
  rw [Follows, hrecords, hresult]
  exact .stop h

/-- An attempt that passes without a record goes unnoticed. -/
theorem Follows.cons (h : A x none none) (ha : a.Follows A fs xs) : a.Follows A fs (x :: xs) :=
  .step h ha

/-- Sequences make the attempts of their parts. -/
theorem Follows.bind (ha : a.Follows A fs xs)
    (hf : ∀ y, a.result fs = .ok y → (f y).Follows A fs ys) :
    (a >>= f).Follows A fs (xs ++ ys) := by
  unfold Follows at ha ⊢
  rw [records_bind, result_bind]
  cases hy : a.result fs with
  | error e =>
    rw [hy] at ha
    exact ha.append_of_error ys
  | ok y =>
    rw [hy] at ha
    exact ha.append (hf y hy)

/-- To dress a result up is no attempt. -/
theorem Follows.returns {f : β → γ} (ha : a.Follows A fs xs) :
    (a >>= fun y => pure (f y)).Follows A fs xs := by
  rw [← List.append_nil xs]
  exact ha.bind fun y _ => follows_pure (f y)

end Survey

/-- What realizes a survey comes to what the survey's attempts do. -/
theorem Action.Realizes.diagnosed {α β γ : Type} {A : Account α} {grave : α → Failure → Prop}
    (hA : A.Exact grave) {a : Action β} {host : Host} {s : Survey γ}
    {R : Descriptors → β → γ → Prop} (ha : a.Realizes host s R) {xs : List α}
    (hs : s.Follows A host.files xs) : A.Diagnosed grave xs (a.run host) := by
  have hrun : A.Runs xs (a.run host).records (failureOf (a.run host).result) := by
    rw [ha.records, ha.failureOf_eq]
    exact hs
  refine ⟨hrun, fun e hblames => ?_, hrun.clear hA⟩
  obtain ⟨hfails, hends⟩ := hrun.blamed hA hblames
  exact ⟨failureOf_eq_some_iff.mp hfails, hends⟩

end PowerZones
