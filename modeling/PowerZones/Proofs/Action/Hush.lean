import PowerZones.Proofs.Action.Stillness

/-!
# The same action with fewer records

A logger decides which records are made, and nothing else may depend on it. This is
a relation between two actions, to be followed through their texts side by side:

* **`Action.Hushed`**: on every host the first action comes to what the second comes
  to and leaves the same host, and its records are those of the second that pass;
* one rule for each way of putting actions together;
* **`Action.hushed_note`** is where a logger comes in: what it lets pass is what is
  left of the record that a logger makes that lets everything pass.

An action that makes no records is related to itself, whatever passes, so what is
silent needs no rule (**`Action.Silent.hushed`**).
-/

namespace PowerZones

/-- Whether a logger lets a record pass. -/
def Logger.lets (logger : Logger) (record : Record) : Bool :=
  logger.verbosity.passes record.severity

/-- The logger that lets every record pass to a destination. -/
def Logger.loud (destination : Destination) : Logger where
  verbosity := .downTo .trace
  destination := destination

theorem Logger.filter_loud (destination : Destination) (record : Record) :
    (Logger.loud destination).filter record = [record] := by
  obtain ⟨severity, text⟩ := record
  cases severity <;> rfl

namespace Action

variable {α β : Type} {keep : Record → Bool} {a b : Action α}

/-- The first action is the second with fewer records: those that do not pass are
left out. -/
def Hushed (keep : Record → Bool) (a b : Action α) : Prop :=
  ∀ host, a.run host =
    ⟨(b.run host).result, (b.run host).host, (b.run host).records.filter keep⟩

/-! ## Without records -/

/-- An action that never makes a record has none to leave out. -/
theorem hushed_of_records (h : ∀ host, (a.run host).records = []) : a.Hushed keep a := by
  intro host
  have hnone := h host
  rcases hrun : a.run host with ⟨result, next, records⟩
  rw [hrun] at hnone
  simp only at hnone
  rw [hnone]
  rfl

theorem Silent.hushed (h : a.Silent) : a.Hushed keep a :=
  hushed_of_records h.records

theorem hushed_openNode (node : NodeId) (access : Access) :
    (openNode node access).Hushed keep (openNode node access) :=
  hushed_of_records fun _ => rfl

theorem hushed_close (id : DescriptorId) : (close id).Hushed keep (close id) :=
  hushed_of_records fun _ => rfl

theorem hushed_writeNumber (id : DescriptorId) (v : UInt64) :
    (writeNumber id v).Hushed keep (writeNumber id v) := by
  refine hushed_of_records fun host => ?_
  simp only [writeNumber]
  cases host.write id (Field.stamp v) <;> rfl

/-! ## Records -/

/-- What a logger lets pass is what is left of the record. -/
theorem hushed_note (logger : Logger) (destination : Destination) (severity : Severity)
    (text : String) :
    (note logger severity text).Hushed logger.lets
      (note (.loud destination) severity text) := by
  intro host
  rw [run_note, run_note, Logger.filter_loud]
  cases hpasses : logger.verbosity.passes severity <;>
    simp [Logger.filter, Logger.lets, hpasses]

/-! ## Rules -/

theorem Hushed.bind {f g : α → Action β} (h : a.Hushed keep b)
    (hfg : ∀ x, (f x).Hushed keep (g x)) : (a >>= f).Hushed keep (b >>= g) := by
  intro host
  rw [run_bind, run_bind, h host]
  rcases hrun : b.run host with ⟨e | x, next, records⟩
  · rfl
  · simp only
    rw [hfg x next, List.filter_append]

theorem Hushed.map (h : a.Hushed keep b) (f : α → β) : (f <$> a).Hushed keep (f <$> b) := by
  rw [← bind_pure_comp, ← bind_pure_comp]
  exact h.bind fun x => (silent_pure (f x)).hushed

theorem Hushed.onFailure {c d : Action Unit} (h : a.Hushed keep b) (hc : c.Hushed keep d) :
    (a.onFailure c).Hushed keep (b.onFailure d) := by
  intro host
  simp only [Action.onFailure, h host]
  rcases hrun : b.run host with ⟨e | x, next, records⟩
  · simp only
    rw [hc next, List.filter_append]
  · rfl

theorem Hushed.thenAlways {c d : Action Unit} (h : a.Hushed keep b) (hc : c.Hushed keep d) :
    (a.thenAlways c).Hushed keep (b.thenAlways d) := by
  intro host
  simp only [Action.thenAlways, h host]
  rw [hc (b.run host).host, List.filter_append]

end Action

end PowerZones
