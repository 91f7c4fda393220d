import PowerZones.Proofs.Entity.Closing

/-!
# Refused arguments

An argument is refused before anything is looked at, so a refusal is the same on
every host, and leaves no trace on any.

* **`Failure.refusal?`** picks the refusals out of all failures, and
  **`refusalOf`** out of all that something may come to;
* **`Action.Refuses`**: an action refuses its arguments for a reason on every host, or
  it takes them, and whatever else goes wrong is no refusal;
* one rule for each way of putting actions together: only the first of two actions
  may refuse, since the host is no longer the same after it.
-/

namespace PowerZones

/-- Why a failure refuses an argument, if that is what it is. -/
def Failure.refusal? : Failure → Option Refusal
  | .refused why => some why
  | _ => none

/-- Why an argument is refused, if that is what something comes to. -/
def refusalOf {α : Type} : Except Failure α → Option Refusal
  | .ok _ => none
  | .error e => e.refusal?

section RefusalOf

variable {α β : Type} {r : Except Failure α}

theorem Failure.eq_refused {e : Failure} {why : Refusal} (h : e.refusal? = some why) :
    e = .refused why := by
  cases e <;> cases h
  rfl

theorem refusalOf_eq_some {why : Refusal} : refusalOf r = some why ↔ r = .error (.refused why) := by
  constructor
  · intro h
    cases r with
    | ok x => cases h
    | error e => rw [Failure.eq_refused h]
  · rintro rfl
    rfl

/-- What follows from a result, and refuses nothing, does not count. -/
theorem refusalOf_bind {f : α → Except Failure β} (hf : ∀ x, refusalOf (f x) = none) :
    refusalOf (r >>= f) = refusalOf r := by
  cases r with
  | ok x => exact hf x
  | error e => rfl

/-- An error of the system is no refusal. -/
theorem refusalOf_mapError {ε : Type} {r : Except ε α} {f : ε → Failure}
    (hf : ∀ e, (f e).refusal? = none) : refusalOf (r.mapError f) = none := by
  cases r with
  | ok x => rfl
  | error e => exact hf e

end RefusalOf

theorem Failure.refusal?_ofOpening (path : String) (e : OsError) :
    (Failure.ofOpening path e).refusal? = none := by
  cases e <;> rfl

theorem Failure.refusal?_ofOneShot (path : String) (e : OsError) :
    (Failure.ofOneShot path e).refusal? = none := by
  cases e <;> rfl

namespace Action

variable {α β : Type} {why? : Option Refusal}

/-- An action that refuses its arguments fails so on every host, which stays as it
is, and makes no record. One that does not may fail, but never with a refusal. -/
def Refuses (a : Action α) : Option Refusal → Prop
  | some why => ∀ host, a.run host = ⟨.error (.refused why), host, []⟩
  | none => ∀ host, refusalOf (a.run host).result = none

/-- An action takes its arguments, whatever becomes of it. -/
abbrev Accepts (a : Action α) : Prop :=
  a.Refuses none

/-! ## Rules -/

theorem accepts_pure (x : α) : (pure x : Action α).Accepts :=
  fun _ => rfl

theorem accepts_fail {e : Failure} (h : e.refusal? = none) : (fail e : Action α).Accepts :=
  fun _ => h

theorem accepts_note (logger : Logger) (severity : Severity) (text : String) :
    (note logger severity text).Accepts :=
  fun _ => rfl

theorem accepts_openNode (node : NodeId) (access : Access) : (openNode node access).Accepts :=
  fun _ => rfl

/-- What is found without looking at the host is a refusal always or never. -/
theorem refuses_ofExcept (r : Except Failure α) : (ofExcept r).Refuses (refusalOf r) := by
  cases hwhy : refusalOf r with
  | none =>
    intro host
    rw [run_ofExcept]
    exact hwhy
  | some why =>
    intro host
    rw [refusalOf_eq_some.mp hwhy]
    rfl

/-- A look at the file system that refuses for a reason does so in every one. -/
theorem refuses_query {find : FileSystem → Except Failure α}
    (h : ∀ fs, refusalOf (find fs) = why?) : (query find).Refuses why? := by
  cases why? with
  | none => exact fun host => h host.files
  | some why =>
    intro host
    rw [run_query, refusalOf_eq_some.mp (h host.files)]

theorem Refuses.bind {a : Action α} {f : α → Action β} (ha : a.Refuses why?)
    (hf : ∀ x, (f x).Accepts) : (a >>= f).Refuses why? := by
  cases why? with
  | some why =>
    intro host
    rw [run_bind, ha host]
  | none =>
    intro host
    have hfirst := ha host
    rw [run_bind]
    rcases hrun : a.run host with ⟨e | x, next, records⟩
    · rw [hrun] at hfirst
      exact hfirst
    · exact hf x next

theorem Refuses.map {a : Action α} (f : α → β) (ha : a.Refuses why?) :
    (f <$> a).Refuses why? := by
  rw [← bind_pure_comp]
  exact ha.bind fun x => accepts_pure (f x)

theorem Refuses.returns {a : Action α} (f : α → β) (ha : a.Refuses why?) :
    (do let x ← a; return f x : Action β).Refuses why? :=
  ha.bind fun x => accepts_pure (f x)

/-- What an attempt comes to is a result. -/
theorem accepts_attempt (a : Action α) : a.attempt.Accepts :=
  fun _ => rfl

theorem accepts_onFailure {a : Action α} (cleanup : Action Unit) (ha : a.Accepts) :
    (a.onFailure cleanup).Accepts := by
  intro host
  have hfirst := ha host
  simp only [onFailure]
  rcases hrun : a.run host with ⟨e | x, next, records⟩
  · rw [hrun] at hfirst
    exact hfirst
  · rfl

theorem accepts_thenAlways {a : Action α} (cleanup : Action Unit) (ha : a.Accepts) :
    (a.thenAlways cleanup).Accepts :=
  ha

/-- To close some descriptors is never refused. -/
theorem accepts_of_closing {a : Action α} {x : α} {ids : List DescriptorId}
    (h : ∀ host, a.run host = ⟨.ok x, host.closing ids, []⟩) : a.Accepts := by
  intro host
  rw [h]
  rfl

/-! ## Descriptors -/

theorem accepts_readNumber (id : DescriptorId) : (readNumber id).Accepts := by
  intro host
  simp only [readNumber, run_observe]
  cases host.read id (Field.numberSize - 1) with
  | error e => rfl
  | ok bytes => cases hb : Field.number bytes <;> simp [hb, refusalOf, Failure.refusal?]

/-- A text is only refused where there is no space at all for it. -/
theorem accepts_readText (id : DescriptorId) {size : Nat} (hsize : size ≠ 0) :
    (readText id size).Accepts := by
  intro host
  simp only [readText, if_neg hsize, run_observe]
  cases host.read id (size - 1) with
  | error e => rfl
  | ok bytes => cases hb : Field.text bytes <;> simp [hb, refusalOf, Failure.refusal?]

theorem accepts_writeNumber (id : DescriptorId) (v : UInt64) : (writeNumber id v).Accepts := by
  intro host
  simp only [writeNumber]
  cases host.write id (Field.stamp v) <;> rfl

theorem accepts_withFile {path : String} {access : Access} {use : DescriptorId → Action α}
    (huse : ∀ id, (use id).Accepts) : (withFile path access use).Accepts := by
  have hopen (fs : FileSystem) :
      refusalOf ((fs.access path access).mapError (Failure.ofOneShot path)) = none :=
    refusalOf_mapError (Failure.refusal?_ofOneShot path)
  refine (refuses_query hopen).bind ?_
  intro node
  refine (accepts_openNode node access).bind ?_
  intro id
  exact accepts_thenAlways _ (huse id)

end Action

end PowerZones
