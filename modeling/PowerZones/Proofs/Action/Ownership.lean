import PowerZones.Action
import PowerZones.Proofs.Keyed

/-!
# Ownership of descriptors

A small logic for the descriptors that an action opens and closes. The open
descriptors of a host are split into those with given numbers, which the action
owns, and a frame, which it must leave alone:

* **`Host.Owns`**: the open descriptors are the owned ones and the frame;
* **`Action.Trades`**: started with some descriptors of its own, an action ends
  with others, which ones depending on whether it fails, whatever the frame;
* **`Action.Keeps`**: an action ends with the descriptors it was started with;
* one rule for each way of putting actions together, so that every action that
  opens descriptors is treated by following its text.

The frame is a list of entries and not only of numbers, so an action that trades
nothing for nothing leaves the same descriptors open on the same nodes.
-/

namespace PowerZones

/-- The open descriptors are those with the given numbers, and the frame. -/
def Host.Owns (host : Host) (ids : List DescriptorId) (frame : List (DescriptorId × OpenFile)) :
    Prop :=
  ∃ own, host.descriptors.entries.Perm (own ++ frame) ∧ own.map Prod.fst = ids

namespace Host.Owns

variable {host host' : Host} {ids ids' more : List DescriptorId}
  {frame : List (DescriptorId × OpenFile)}

/-- Only the descriptors of a host matter to who owns them. -/
theorem of_descriptors_eq (h : host.Owns ids frame)
    (heq : host'.descriptors = host.descriptors) : host'.Owns ids frame := by
  unfold Host.Owns
  rw [heq]
  exact h

theorem perm (h : host.Owns ids frame) (hp : ids.Perm ids') : host.Owns ids' frame := by
  obtain ⟨own, hent, rfl⟩ := h
  -- the owned entries are put into the order of the numbers
  obtain ⟨own', hids, hown⟩ :
      Relation.Comp (· = List.map Prod.fst ·) List.Perm ids' own := by
    rw [List.eq_map_comp_perm]
    exact hp.symm
  exact ⟨own', hent.trans (hown.symm.append_right frame), hids.symm⟩

theorem nil_entries (host : Host) : host.Owns [] host.descriptors.entries :=
  ⟨[], .refl _, rfl⟩

/-- Who owns nothing has the frame open, and nothing else. -/
theorem perm_of_nil (h : host.Owns [] frame) : host.descriptors.entries.Perm frame := by
  obtain ⟨own, hent, hids⟩ := h
  rw [List.map_eq_nil_iff.mp hids] at hent
  exact hent

/-- Every owned descriptor counts once. -/
theorem size_eq (h : host.Owns ids frame) : host.descriptors.size = ids.length + frame.length := by
  obtain ⟨own, hent, rfl⟩ := h
  rw [Descriptors.size, hent.length_eq, List.length_append, List.length_map]

/-- Owned descriptors can be put into the frame. -/
theorem enlarge_frame (h : host.Owns (ids ++ more) frame) :
    ∃ own, own.map Prod.fst = more ∧ host.Owns ids (own ++ frame) := by
  obtain ⟨own, hent, hids⟩ := h
  obtain ⟨front, back, rfl, hfront, hback⟩ := List.map_eq_append_iff.mp hids
  exact ⟨back, hback, front, by simpa using hent, hfront⟩

/-- Descriptors can be taken back from the frame. -/
theorem shrink_frame {own : List (DescriptorId × OpenFile)} (h : host.Owns ids (own ++ frame)) :
    host.Owns (ids ++ own.map Prod.fst) frame := by
  obtain ⟨front, hent, rfl⟩ := h
  exact ⟨front ++ own, by simpa using hent, by simp⟩

/-- A new descriptor is owned. -/
theorem add {file : OpenFile} (h : host.Owns ids frame) :
    Host.Owns { host with descriptors := host.descriptors.add file }
      (host.descriptors.next :: ids) frame := by
  obtain ⟨own, hent, rfl⟩ := h
  exact ⟨(host.descriptors.next, file) :: own, hent.cons _, rfl⟩

/-- A descriptor closed is no longer owned, and the frame stays: numbers are
given out once, so no other entry has that number. -/
theorem erase {id : DescriptorId} (h : host.Owns (id :: ids) frame) :
    Host.Owns { host with descriptors := host.descriptors.erase id } ids frame := by
  obtain ⟨own, hent, hids⟩ := h
  obtain ⟨entry, rest, rfl, rfl, rfl⟩ := List.map_eq_cons_iff.mp hids
  refine ⟨rest, ?_, rfl⟩
  -- the number of the first entry occurs neither among the owned ones nor in the frame
  have hnodup : ((entry :: (rest ++ frame)).map Prod.fst).Nodup :=
    (hent.map Prod.fst).nodup_iff.mp host.descriptors.nodup
  rw [List.map_cons, List.nodup_cons] at hnodup
  have hfilter := hent.filter fun e => e.1 ≠ entry.1
  rw [List.cons_append, List.filter_cons_of_neg (by simp),
    Keyed.filter_of_not_mem hnodup.1] at hfilter
  exact hfilter

end Host.Owns

namespace Action

variable {α β : Type} {before : List DescriptorId} {after : α → List DescriptorId}
  {failed : List DescriptorId}

/-- Started with the descriptors `before`, the action ends with those that
belong to its result, or with those `failed` if it fails, and leaves every frame
alone. -/
def Trades (before : List DescriptorId) (a : Action α) (after : α → List DescriptorId)
    (failed : List DescriptorId) : Prop :=
  ∀ host frame, host.Owns before frame →
    match (a.run host).result with
    | .ok x => (a.run host).host.Owns (after x) frame
    | .error _ => (a.run host).host.Owns failed frame

/-- The action ends with the descriptors it was started with. -/
def Keeps (a : Action α) : Prop :=
  ∀ ids, a.Trades ids (fun _ => ids) ids

/-! ## Actions that leave the descriptors alone -/

/-- What leaves the descriptors of every host as they are keeps them. -/
theorem keeps_of_descriptors_eq {a : Action α}
    (h : ∀ host, (a.run host).host.descriptors = host.descriptors) : a.Keeps := by
  intro ids host frame howns
  split <;> exact howns.of_descriptors_eq (h host)

theorem keeps_pure (x : α) : (pure x : Action α).Keeps :=
  keeps_of_descriptors_eq fun _ => rfl

theorem keeps_fail (e : Failure) : (fail e : Action α).Keeps :=
  keeps_of_descriptors_eq fun _ => rfl

theorem keeps_ofExcept (r : Except Failure α) : (ofExcept r).Keeps :=
  keeps_of_descriptors_eq fun _ => by simp

theorem keeps_observe (look : Host → Except Failure α) : (observe look).Keeps :=
  keeps_of_descriptors_eq fun _ => rfl

theorem keeps_query (look : FileSystem → Except Failure α) : (query look).Keeps :=
  keeps_observe _

/-- A record never fails to be made. -/
theorem trades_note (logger : Logger) (severity : Severity) (text : String) :
    (note logger severity text).Trades before (fun _ => before) failed :=
  fun _ _ howns => howns

theorem keeps_note (logger : Logger) (severity : Severity) (text : String) :
    (note logger severity text).Keeps :=
  fun _ => trades_note logger severity text

theorem keeps_readNumber (id : DescriptorId) : (readNumber id).Keeps :=
  keeps_observe _

theorem keeps_readText (id : DescriptorId) (size : Nat) : (readText id size).Keeps := by
  unfold readText
  split
  · exact keeps_fail _
  · exact keeps_observe _

theorem keeps_writeNumber (id : DescriptorId) (v : UInt64) : (writeNumber id v).Keeps := by
  refine keeps_of_descriptors_eq fun host => ?_
  simp only [writeNumber, Host.write]
  -- a write either fails, or changes the file system and nothing else
  cases host.descriptors.find? id with
  | none => rfl
  | some file =>
    by_cases hw : file.access.writes = true
    · cases hfs : host.files.write file.node (Field.stamp v) <;> simp [hw, hfs, Except.map]
    · simp [hw]

/-! ## Rules -/

/-- A failure alone trades as one likes: there is no result. -/
theorem trades_fail (e : Failure) : (fail e : Action α).Trades before after before :=
  fun _ _ howns => howns

/-- A value belongs to nobody: what was owned is owned. -/
theorem trades_pure (x : α) (h : before.Perm (after x)) :
    (pure x : Action α).Trades before after failed :=
  fun _ _ howns => howns.perm h

/-- A sequence trades what its parts trade one after the other, if both leave
the same when they fail. -/
theorem Trades.bind {a : Action α} {f : α → Action β} {last : β → List DescriptorId}
    (ha : a.Trades before after failed) (hf : ∀ x, (f x).Trades (after x) last failed) :
    (a >>= f).Trades before last failed := by
  intro host frame howns
  have hfirst := ha host frame howns
  rw [run_bind]
  rcases hrun : a.run host with ⟨result, next, records⟩
  rw [hrun] at hfirst
  cases result with
  | ok x => exact hf x next frame hfirst
  | error e => exact hfirst

/-- What comes before an action and keeps the descriptors changes nothing. -/
theorem Keeps.bind {a : Action α} {f : α → Action β} {last : β → List DescriptorId}
    (ha : a.Keeps) (hf : ∀ x, (f x).Trades before last before) :
    (a >>= f).Trades before last before :=
  (ha before).bind hf

theorem Keeps.bind_keeps {a : Action α} {f : α → Action β} (ha : a.Keeps)
    (hf : ∀ x, (f x).Keeps) : (a >>= f).Keeps :=
  fun ids => ha.bind fun x => hf x ids

theorem Trades.map {a : Action α} {f : α → β} {last : β → List DescriptorId}
    (ha : a.Trades before after failed) (hf : ∀ x, (after x).Perm (last (f x))) :
    (f <$> a).Trades before last failed := by
  rw [← bind_pure_comp]
  exact ha.bind fun x => trades_pure (f x) (hf x)

theorem Keeps.map {a : Action α} (f : α → β) (ha : a.Keeps) : (f <$> a).Keeps :=
  fun ids => (ha ids).map fun _ => .refl _

/-- Descriptors that an action does not know of stay. -/
theorem Trades.frame {a : Action α} (ha : a.Trades before after failed)
    (more : List DescriptorId) :
    a.Trades (before ++ more) (fun x => after x ++ more) (failed ++ more) := by
  intro host frame howns
  -- what is more is frame to the action
  obtain ⟨own, rfl, hown⟩ := howns.enlarge_frame
  have h := ha host _ hown
  split at h
  · exact h.shrink_frame
  · exact h.shrink_frame

/-- The order of descriptors does not matter, neither before nor after. -/
theorem Trades.perm {a : Action α} {before' : List DescriptorId} {after' : α → List DescriptorId}
    {failed' : List DescriptorId} (ha : a.Trades before after failed)
    (hbefore : before'.Perm before) (hafter : ∀ x, (after x).Perm (after' x))
    (hfailed : failed.Perm failed') : a.Trades before' after' failed' := by
  intro host frame howns
  have h := ha host frame (howns.perm hbefore)
  split at h
  · exact h.perm (hafter _)
  · exact h.perm hfailed

/-- A cleanup sees to the descriptors of an action that fails. -/
theorem Trades.onFailure {a : Action α} {cleanup : Action Unit} {left : List DescriptorId}
    (ha : a.Trades before after left) (hc : cleanup.Trades left (fun _ => failed) failed) :
    (a.onFailure cleanup).Trades before after failed := by
  intro host frame howns
  have hfirst := ha host frame howns
  simp only [Action.onFailure]
  rcases hrun : a.run host with ⟨result, next, records⟩
  rw [hrun] at hfirst
  cases result with
  | ok x => exact hfirst
  | error e =>
    have hsecond := hc next frame hfirst
    split at hsecond <;> exact hsecond

/-- A cleanup that always runs sees to the descriptors in any case. -/
theorem Trades.thenAlways {a : Action α} {cleanup : Action Unit} {left : List DescriptorId}
    (ha : a.Trades before (fun _ => left) left)
    (hc : cleanup.Trades left (fun _ => failed) failed) :
    (a.thenAlways cleanup).Trades before (fun _ => failed) failed := by
  intro host frame howns
  have hfirst : (a.run host).host.Owns left frame := by
    have h := ha host frame howns
    split at h <;> exact h
  have hsecond := hc (a.run host).host frame hfirst
  simp only [Action.thenAlways]
  split at hsecond <;> split <;> exact hsecond

/-- An attempt has a result in any case, so it never fails. -/
theorem Keeps.trades_attempt {a : Action α} (ha : a.Keeps) :
    a.attempt.Trades before (fun _ => before) failed := by
  intro host frame howns
  have h := ha before host frame howns
  -- both ends of the action are the one end of the attempt
  split at h <;> exact h

theorem Keeps.attempt {a : Action α} (ha : a.Keeps) : a.attempt.Keeps :=
  fun _ => ha.trades_attempt

/-- Opening gains a descriptor. -/
theorem trades_openNode (node : NodeId) (access : Access) :
    (openNode node access).Trades [] (fun id => [id]) failed :=
  fun _ _ howns => howns.add

/-- Closing loses the descriptor, and never fails. -/
theorem trades_close (id : DescriptorId) (ids : List DescriptorId) :
    (close id).Trades (id :: ids) (fun _ => ids) failed :=
  fun _ _ howns => howns.erase

/-! ## What the trades say of a host -/

/-- An action that gives nothing away when it fails leaves the open descriptors
as they were when it fails. -/
theorem Trades.perm_of_error {a : Action α} (ha : a.Trades [] after []) {host : Host}
    {e : Failure} (h : (a.run host).result = .error e) :
    (a.run host).host.descriptors.entries.Perm host.descriptors.entries := by
  have howns := ha host _ (Host.Owns.nil_entries host)
  rw [h] at howns
  exact howns.perm_of_nil

/-- An action that keeps its descriptors leaves the open ones as they were. -/
theorem Keeps.perm {a : Action α} (ha : a.Keeps) (host : Host) :
    (a.run host).host.descriptors.entries.Perm host.descriptors.entries := by
  have howns := ha [] host _ (Host.Owns.nil_entries host)
  split at howns <;> exact howns.perm_of_nil

end Action

end PowerZones
