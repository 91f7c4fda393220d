import PowerZones.Failure
import PowerZones.Host
import PowerZones.Log

/-!
# Actions

An action runs on a host and comes to a result or a failure. Either way it
leaves a host behind and says which records it made: an effect that precedes a
failure is not undone.

* **`Action.onFailure`** and **`Action.thenAlways`** run a cleanup when an action
  fails, or in any case. Everything that opens descriptors is built with them.
* **The primitive actions** open, read, write and close descriptors.
-/

namespace PowerZones

/-- What running an action comes to. -/
structure Outcome (α : Type) where
  result : Except Failure α
  host : Host
  records : List Record

/-- Something to be done on a host. -/
structure Action (α : Type) where
  run : Host → Outcome α

namespace Action

variable {α β : Type}

/-- Two actions that run alike are equal. -/
@[ext] theorem ext {a b : Action α} (h : ∀ host, a.run host = b.run host) : a = b := by
  cases a; cases b
  congr
  exact funext h

/-- Comes to a value and does nothing else. -/
protected def pure (x : α) : Action α where
  run host := ⟨.ok x, host, []⟩

/-- Runs an action and, if it has a result, the action that follows from it. -/
protected def bind (a : Action α) (f : α → Action β) : Action β where
  run host :=
    match a.run host with
    | ⟨.ok x, host, records⟩ =>
      let rest := (f x).run host
      ⟨rest.result, rest.host, records ++ rest.records⟩
    | ⟨.error e, host, records⟩ => ⟨.error e, host, records⟩

instance : Monad Action where
  pure := Action.pure
  bind := Action.bind

/-- Comes to a failure and does nothing else. -/
def fail (e : Failure) : Action α where
  run host := ⟨.error e, host, []⟩

/-- Comes to what was found before. -/
def ofExcept : Except Failure α → Action α
  | .ok x => pure x
  | .error e => fail e

/-- Comes to what is found on the host, which stays as it is. -/
def observe (look : Host → Except Failure α) : Action α where
  run host := ⟨look host, host, []⟩

/-- Comes to what is found in the file system, which stays as it is. -/
def query (look : FileSystem → Except Failure α) : Action α :=
  observe fun host => look host.files

/-- Makes a record, as far as the logger lets it pass. -/
def note (logger : Logger) (severity : Severity) (text : String) : Action Unit where
  run host := ⟨.ok (), host, logger.filter ⟨severity, text⟩⟩

/-- Runs an action and takes its failure for a result. -/
def attempt (a : Action α) : Action (Except Failure α) where
  run host :=
    let outcome := a.run host
    ⟨.ok outcome.result, outcome.host, outcome.records⟩

/-- Runs an action and, if it fails, a cleanup; the failure stays. -/
def onFailure (a : Action α) (cleanup : Action Unit) : Action α where
  run host :=
    match a.run host with
    | ⟨.ok x, host, records⟩ => ⟨.ok x, host, records⟩
    | ⟨.error e, host, records⟩ =>
      let rest := cleanup.run host
      ⟨.error e, rest.host, records ++ rest.records⟩

/-- Runs an action and then a cleanup; the result or failure stays. -/
def thenAlways (a : Action α) (cleanup : Action Unit) : Action α where
  run host :=
    let first := a.run host
    let rest := cleanup.run first.host
    ⟨first.result, rest.host, first.records ++ rest.records⟩

/-! ## Descriptors -/

/-- Opens a descriptor on a node. -/
def openNode (node : NodeId) (access : Access) : Action DescriptorId where
  run host :=
    ⟨.ok host.descriptors.next,
      { host with descriptors := host.descriptors.add ⟨node, access⟩ }, []⟩

/-- Closes a descriptor. That this fails does not occur on a host, and would be
ignored. -/
def close (id : DescriptorId) : Action Unit where
  run host := ⟨.ok (), { host with descriptors := host.descriptors.erase id }, []⟩

/-- Reads the number that a descriptor is open on. Of what does not occur on a
host, an interruption would start the read again, and the lack of data would
count as a read of no bytes. -/
def readNumber (id : DescriptorId) : Action UInt64 :=
  observe fun host =>
    match host.read id (Field.numberSize - 1) with
    | .error e => .error (.system e)
    | .ok bytes =>
      match Field.number bytes with
      | .ok v => .ok v
      | .error why => .error (.noValue why)

/-- Reads the text that a descriptor is open on, into a buffer of the given
size, of which one byte stays free. Interruptions and the lack of data would be
dealt with as for a number. -/
def readText (id : DescriptorId) (size : Nat) : Action String :=
  if size = 0 then fail (.refused .emptyBuffer)
  else observe fun host =>
    match host.read id (size - 1) with
    | .error e => .error (.system e)
    | .ok bytes =>
      match Field.text bytes with
      | .ok s => .ok s
      | .error why => .error (.noValue why)

/-- Writes a number to what a descriptor is open on. On a host all of its bytes
are written, or there is an error. An interruption would start the write again;
of a count of bytes, only zero would be a failure, and a write of some of the
bytes would pass for one of all. -/
def writeNumber (id : DescriptorId) (v : UInt64) : Action Unit where
  run host :=
    match host.write id (Field.stamp v) with
    | .error e => ⟨.error (.system e), host, []⟩
    | .ok written => ⟨.ok (), written, []⟩

/-! ## Running -/

section Run

variable (host : Host)

@[simp] theorem run_pure (x : α) : (pure x : Action α).run host = ⟨.ok x, host, []⟩ := rfl

@[simp] theorem run_fail (e : Failure) : (fail e : Action α).run host = ⟨.error e, host, []⟩ := rfl

@[simp] theorem run_ofExcept (r : Except Failure α) :
    (ofExcept r).run host = ⟨r, host, []⟩ := by
  cases r <;> rfl

@[simp] theorem run_observe (look : Host → Except Failure α) :
    (observe look).run host = ⟨look host, host, []⟩ := rfl

@[simp] theorem run_query (look : FileSystem → Except Failure α) :
    (query look).run host = ⟨look host.files, host, []⟩ := rfl

@[simp] theorem run_note (logger : Logger) (severity : Severity) (text : String) :
    (note logger severity text).run host = ⟨.ok (), host, logger.filter ⟨severity, text⟩⟩ := rfl

@[simp] theorem run_attempt (a : Action α) :
    a.attempt.run host = ⟨.ok (a.run host).result, (a.run host).host, (a.run host).records⟩ := rfl

/-- A sequence goes on from the result of its first part. -/
theorem run_bind (a : Action α) (f : α → Action β) :
    (a >>= f).run host =
      match a.run host with
      | ⟨.ok x, host, records⟩ =>
        ⟨((f x).run host).result, ((f x).run host).host, records ++ ((f x).run host).records⟩
      | ⟨.error e, host, records⟩ => ⟨.error e, host, records⟩ := rfl

/-- A sequence has a result only if its parts have, and runs as they do then. -/
theorem run_bind_of_ok {a : Action α} {f : α → Action β} {host : Host} {y : β}
    (h : ((a >>= f).run host).result = .ok y) :
    ∃ x next records, a.run host = ⟨.ok x, next, records⟩ ∧
      ((f x).run next).result = .ok y ∧
      (a >>= f).run host = ⟨.ok y, ((f x).run next).host, records ++ ((f x).run next).records⟩ := by
  rw [run_bind] at h ⊢
  rcases hrun : a.run host with ⟨_ | x, next, records⟩
  · rw [hrun] at h
    cases h
  · rw [hrun] at h
    exact ⟨x, next, records, rfl, h, by rw [← h]⟩

theorem result_bind_eq_ok {a : Action α} {f : α → Action β} {host : Host} {y : β}
    (h : ((a >>= f).run host).result = .ok y) :
    ∃ x, (a.run host).result = .ok x ∧ ((f x).run (a.run host).host).result = .ok y := by
  obtain ⟨x, next, records, hrun, hrest, -⟩ := run_bind_of_ok h
  rw [hrun]
  exact ⟨x, rfl, hrest⟩

end Run

/-! ## Laws -/

/-- A value is handed on as it is. -/
theorem pure_bind (x : α) (f : α → Action β) : (pure x >>= f) = f x := by
  ext host
  simp [run_bind]

/-- Nothing follows from an action but its own result. -/
theorem bind_pure (a : Action α) : (a >>= fun x => pure x) = a := by
  ext host
  rw [run_bind]
  rcases a.run host with ⟨_ | _, _, records⟩ <;> simp

/-- Sequences do not depend on how they are grouped. -/
theorem bind_assoc {γ : Type} (a : Action α) (f : α → Action β) (g : β → Action γ) :
    (a >>= f >>= g) = (a >>= fun x => f x >>= g) := by
  ext host
  simp only [run_bind]
  rcases a.run host with ⟨_ | x, next, records⟩
  · rfl
  · simp only
    rcases (f x).run next with ⟨_ | _, _, _⟩ <;> simp

instance : LawfulMonad Action :=
  LawfulMonad.mk' Action bind_pure pure_bind bind_assoc

/-- What is done to the result of an action is done to nothing else. -/
theorem run_map (f : α → β) (a : Action α) (host : Host) :
    (f <$> a).run host =
      ⟨(a.run host).result.map f, (a.run host).host, (a.run host).records⟩ := by
  rw [← bind_pure_comp, run_bind]
  rcases a.run host with ⟨_ | x, next, records⟩
  · rfl
  · simp [Except.map]

end Action

end PowerZones
