import PowerZones.Proofs.Keyed
import PowerZones.Session.Step

/-!
# Sessions and the world around them

A session is not alone: between two requests anybody may change the file system,
and not only in the ways that a request can ask for. An event is a request, or
a file system that has been put in place of the one before, whatever it is.

* **`Session.after`** is the session after a list of events;
* **`Session.after_induction`** proves an invariant of every session that some
  events lead to, from one step of each kind.
-/

namespace PowerZones

/-- What happens to a session. -/
inductive Event where
  | request (r : Request)
  /-- The file system is changed by others, in any way at all. -/
  | disturbance (files : FileSystem)

namespace Session

/-- The session after one event. -/
def happen (s : Session) : Event → Session
  | .request r => (s.step r).1
  | .disturbance files => { s with host := { s.host with files := files } }

/-- The session after some events. -/
def after (s : Session) (events : List Event) : Session :=
  events.foldl happen s

/-- A run of requests is a list of events without disturbance. -/
theorem run_eq_after (s : Session) (requests : List Request) :
    (s.run requests).1 = s.after (requests.map .request) := by
  induction requests generalizing s with
  | nil => rfl
  | cons r rest ih => exact ih (s.step r).1

/-- What one request and one disturbance preserve, every list of events does. -/
theorem after_induction {P : Session → Prop} {s : Session} (start : P s)
    (step : ∀ s r, P s → P (s.step r).1)
    (disturbed : ∀ (s : Session) files, P s → P { s with host := { s.host with files := files } })
    (events : List Event) : P (s.after events) := by
  induction events generalizing s with
  | nil => exact start
  | cons e rest ih =>
    cases e with
    | request r => exact ih (step s r start)
    | disturbance files => exact ih (disturbed s files start)

end Session

/-! ## Handles under names -/

namespace Handles

variable {handles : Handles} {name : String}

/-- Without a handle under a name, there is nothing to take away. -/
theorem erase_of_lookup_none (h : handles.lookup name = none) : handles.erase name = handles := by
  refine Keyed.filter_of_not_mem fun hmem => ?_
  rw [← Keyed.isSome_lookup_iff, h] at hmem
  cases hmem

theorem nodup_erase (hnodup : (handles.map Prod.fst).Nodup) (name : String) :
    ((handles.erase name).map Prod.fst).Nodup :=
  hnodup.sublist (List.filter_sublist.map Prod.fst)

theorem nodup_insert (hnodup : (handles.map Prod.fst).Nodup) (name : String) (handle : Handle) :
    ((handles.insert name handle).map Prod.fst).Nodup := by
  rw [insert, List.map_cons, List.nodup_cons]
  refine ⟨fun hmem => ?_, nodup_erase hnodup name⟩
  obtain ⟨e, he, hname⟩ := List.mem_map.mp hmem
  have hne : e.1 ≠ name := by simpa using (List.mem_filter.mp he).2
  exact hne hname

@[simp] theorem lookup_insert (name : String) (handle : Handle) :
    (handles.insert name handle).lookup name = some handle := by
  simp [insert]

end Handles

end PowerZones
