import PowerZones.Files.Listing
import PowerZones.Proofs.Files.Walk
import Mathlib.Data.List.Basic

/-!
# Names put after paths

A plain name put after a path adds one segment to its route, so that the entry of
that name is found both by the joined path and from the directory.

* **`PlainName`** is a name that stands for one step down.
* **`absolute_join`** and **`Route.segments_join`**: the route of a joined path.
-/

namespace PowerZones

/-- A name put after a path makes it no shorter. -/
theorem utf8ByteSize_le_join (path name : String) :
    path.utf8ByteSize ≤ (join path name).utf8ByteSize := by
  rw [join]
  split <;> simp only [String.utf8ByteSize_append] <;> omega

/-- A name put after a path takes its own bytes, wherever the path ends. -/
theorem utf8ByteSize_join (path name : String) :
    (join path name).utf8ByteSize = (join path "").utf8ByteSize + name.utf8ByteSize := by
  unfold join
  split <;> simp only [String.utf8ByteSize_append, String.utf8ByteSize_empty, Nat.add_zero]

/-- A name that stands for one step down. -/
structure PlainName (name : String) : Prop where
  ne_empty : name ≠ ""
  ne_here : name ≠ "."
  ne_up : name ≠ ".."
  slash : '/' ∉ name.toList

namespace PlainName

variable {name : String} (h : PlainName name)

include h

theorem toList_ne_nil : name.toList ≠ [] := by
  simpa using h.ne_empty

theorem segment : Segment.ofText name.toList = .entry (.text name) := by
  have hhere : name.toList ≠ ['.'] := fun heq => h.ne_here (String.toList_inj.mp heq)
  have hup : name.toList ≠ ['.', '.'] := fun heq => h.ne_up (String.toList_inj.mp heq)
  rw [Segment.ofText, if_neg hhere, if_neg hup, String.ofList_toList]

/-- What ends in a plain name ends in no slash. -/
theorem getLast?_append (start : List Char) :
    (start ++ name.toList).getLast? ≠ some '/' := by
  rw [List.getLast?_append_of_ne_nil _ h.toList_ne_nil]
  exact fun hlast => h.slash (List.mem_of_getLast? hlast)

theorem getLast?_join (path : String) : (join path name).toList.getLast? ≠ some '/' := by
  unfold join
  split
  · rw [String.toList_append]
    exact h.getLast?_append _
  · rw [String.toList_append, String.toList_append]
    exact h.getLast?_append _

end PlainName

/-- A name that a directory can hold as text is plain, and holds no NUL. -/
theorem PlainName.of_proper {name : String} (h : (Name.text name).proper = true) :
    PlainName name ∧ name.utf8ByteSize ≤ Name.maxSize ∧ '\x00' ∉ name.toList := by
  simp only [Name.proper, Bool.and_eq_true, decide_eq_true_eq, Bool.not_eq_true',
    List.contains_eq_mem, decide_eq_false_iff_not] at h
  obtain ⟨⟨⟨⟨⟨hempty, hhere⟩, hup⟩, hsize⟩, hslash⟩, hnul⟩ := h
  exact ⟨⟨hempty, hhere, hup, hslash⟩, hsize, hnul⟩

/-- A path that names something, and goes on with a slash if at all. -/
structure OpenPath (path : String) : Prop where
  ne_empty : path ≠ ""
  slash : path.toList.getLast? ≠ some '/'

namespace OpenPath

variable {path name : String}

theorem join_eq (h : OpenPath path) (name : String) : join path name = path ++ "/" ++ name := by
  rw [join, if_neg]
  rintro (hempty | hslash)
  · exact h.ne_empty hempty
  · exact h.slash hslash

theorem of_join (path : String) (h : PlainName name) : OpenPath (join path name) := by
  refine ⟨fun hempty => ?_, h.getLast?_join path⟩
  unfold join at hempty
  split at hempty <;> simp [h.ne_empty] at hempty

theorem trailing (h : OpenPath path) : Route.trailing path.toList = [] := by
  rw [Route.trailing, if_neg fun hlast => h.slash hlast.1]

end OpenPath

/-- A plain name put after a path starts where the path does. -/
theorem absolute_join {path name : String} (hname : PlainName name) :
    (Route.ofText (join path name)).absolute = (Route.ofText path).absolute := by
  by_cases hempty : path = ""
  · have hslash : name.toList.head? ≠ some '/' := fun h => hname.slash (List.mem_of_head? h)
    simp [Route.ofText, join, hempty, hslash]
  · have hne : path.toList ≠ [] := by simpa using hempty
    have hhead : (join path name).toList.head? = path.toList.head? := by
      unfold join
      split <;> simp only [String.toList_append, List.append_assoc,
        List.head?_append_of_ne_nil _ hne]
    simp only [Route.ofText, hhead]

/-- A plain name put after a path is one segment more; a slash at the end of the path
counts no longer. -/
theorem Route.segments_join (path : String) {name : String} (hname : PlainName name) :
    (Route.ofText (join path name)).segments =
      (components path.toList).map Segment.ofText ++ [.entry (.text name)] := by
  simp only [Route.ofText, (OpenPath.of_join path hname).trailing, List.append_nil,
    components_join path name hname.ne_empty hname.slash, List.map_append, List.map_cons,
    List.map_nil, hname.segment]

/-- A path that is not refused holds no NUL and is not too long. -/
theorem pathFault?_eq_none {path : String} : pathFault? path = none ↔
    '\x00' ∉ path.toList ∧ path ≠ "" ∧ path.utf8ByteSize < maxPathSize := by
  rw [pathFault?, List.contains_eq_mem]
  split
  · next h => simpa using fun hn => absurd (by simpa using h) hn
  · next h =>
    have hnul : '\x00' ∉ path.toList := by simpa using h
    split
    · next hempty => simp [hempty]
    · next hempty =>
      split
      · next hsize => exact ⟨nofun, fun h' => absurd h'.2.2 (Nat.not_lt.mpr hsize)⟩
      · next hsize => exact ⟨fun _ => ⟨hnul, hempty, Nat.not_le.mp hsize⟩, fun _ => rfl⟩

/-- A name without NUL, put after a path that is not refused, gives another, as
long as it is not too long. -/
theorem pathFault?_join {path name : String} (hfault : pathFault? path = none)
    (hnul : '\x00' ∉ name.toList) (hsize : (join path name).utf8ByteSize < maxPathSize) :
    pathFault? (join path name) = none := by
  obtain ⟨hnulPath, hempty, -⟩ := pathFault?_eq_none.mp hfault
  refine pathFault?_eq_none.mpr ⟨?_, fun hjoin => ?_, hsize⟩
  · unfold join
    split <;> simp [String.toList_append, hnulPath, hnul]
  · unfold join at hjoin
    split at hjoin <;> simp [hempty] at hjoin

end PowerZones
