import PowerZones.Files.Name
import PowerZones.Files.OsError

/-!
# Routes

A path is text; what a file system follows is a route: where it starts, and
one segment for each step.

* **`Route.ofText`** splits a path at its slashes. Repeated slashes count once,
  and a slash at the end asks for a directory.
* **`pathFault?`** says why a path is refused before anything is looked up.
-/

namespace PowerZones

/-- One step of a route. -/
inductive Segment where
  /-- To the entry of that name. -/
  | entry (name : Name)
  /-- Nowhere: `.` -/
  | here
  /-- To the parent directory: `..` -/
  | up
  /-- Nowhere, but only from a directory: a slash at the end of a path. -/
  | directoryOnly
  deriving DecidableEq, Repr

/-- Where to start, and the steps to take. -/
structure Route where
  absolute : Bool
  segments : List Segment
  deriving DecidableEq, Repr

/-- Items between separators, also the empty ones before, between and after. -/
def splitAt {α : Type} [DecidableEq α] (separator : α) : List α → List (List α)
  | [] => [[]]
  | c :: rest =>
    if c = separator then [] :: splitAt separator rest
    else match splitAt separator rest with
      | [] => [[c]]
      | word :: words => (c :: word) :: words

/-- The segment that a component of a path stands for. -/
def Segment.ofText (component : List Char) : Segment :=
  if component = ['.'] then .here
  else if component = ['.', '.'] then .up
  else .entry (.text (String.ofList component))

/-- The segment that a component of a path in bytes stands for. -/
def Segment.ofBytes (component : List UInt8) : Segment :=
  match Name.ofBytes component with
  | .text s => .ofText s.toList
  | .raw bytes => .entry (.raw bytes)

namespace Route

/-- The components of a path: what stands between its slashes. -/
def components (path : List Char) : List (List Char) :=
  (splitAt '/' path).filter (· ≠ [])

/-- Where a slash ends the path, the step that asks for a directory. -/
def trailing (path : List Char) : List Segment :=
  if path.getLast? = some '/' ∧ components path ≠ [] then [.directoryOnly] else []

/-- The route that a path spells. -/
def ofText (path : String) : Route where
  absolute := path.toList.head? = some '/'
  segments := (components path.toList).map Segment.ofText ++ trailing path.toList

/-- The route that a path in bytes spells, without regard to a last slash. -/
def ofBytes (path : List UInt8) : Route where
  absolute := path.head? = some 0x2F
  segments := ((splitAt 0x2F path).filter (· ≠ [])).map Segment.ofBytes

end Route

/-- The greatest length of a path in bytes, with its terminator. -/
def maxPathSize : Nat := 4096

/-- Why a path is refused before anything is looked up. -/
def pathFault? (path : String) : Option OsError :=
  if path.toList.contains '\x00' then some .embeddedNul
  else if path = "" then some .noEntry
  else if path.utf8ByteSize ≥ maxPathSize then some .nameTooLong
  else none

/-- A name put after a path: a slash joins them unless nothing or a slash
precedes. -/
def join (path name : String) : String :=
  if path = "" ∨ path.toList.getLast? = some '/' then path ++ name else path ++ "/" ++ name

/-! ## Splitting and joining -/

theorem splitAt_ne_nil {α : Type} [DecidableEq α] (separator : α) (l : List α) :
    splitAt separator l ≠ [] := by
  cases l with
  | nil => simp [splitAt]
  | cons c rest =>
    rw [splitAt]
    split
    · simp
    · split <;> simp

theorem splitAt_append {α : Type} [DecidableEq α] (separator : α) (a b : List α) :
    splitAt separator (a ++ separator :: b) = splitAt separator a ++ splitAt separator b := by
  induction a with
  | nil => simp [splitAt]
  | cons c rest ih =>
    rw [List.cons_append, splitAt, splitAt, ih]
    by_cases h : c = separator
    · simp [h]
    · rw [if_neg h, if_neg h]
      cases hs : splitAt separator rest with
      | nil => exact absurd hs (splitAt_ne_nil separator rest)
      | cons word words => rfl

theorem splitAt_of_not_mem {α : Type} [DecidableEq α] (separator : α) (word : List α)
    (h : separator ∉ word) : splitAt separator word = [word] := by
  induction word with
  | nil => rfl
  | cons c rest ih =>
    rw [List.mem_cons, not_or] at h
    rw [splitAt, if_neg (fun he => h.1 he.symm), ih h.2]

namespace Route

/-- Splitting at a slash splits the components. -/
theorem components_append (a b : List Char) :
    components (a ++ '/' :: b) = components a ++ components b := by
  simp [components, splitAt_append]

/-- A word without slash is one component. -/
theorem components_of_not_mem (word : List Char) (hne : word ≠ []) (h : '/' ∉ word) :
    components word = [word] := by
  simp [components, splitAt_of_not_mem _ _ h, hne]

/-- Joining a name to a path adds one component. -/
theorem components_join (path name : String) (hne : name ≠ "") (h : '/' ∉ name.toList) :
    components (join path name).toList = components path.toList ++ [name.toList] := by
  have hname : name.toList ≠ [] := by simpa using hne
  unfold join
  split
  next hp =>
    rcases hp with rfl | hp
    · simpa [components, splitAt] using components_of_not_mem _ hname h
    · obtain ⟨start, hs⟩ := List.getLast?_eq_some_iff.mp hp
      rw [String.toList_append, hs, List.append_assoc, List.singleton_append, components_append,
        components_append, components_of_not_mem _ hname h]
      simp [components, splitAt]
  next =>
    have : (path ++ "/" ++ name).toList = path.toList ++ '/' :: name.toList := by simp
    rw [this, components_append, components_of_not_mem _ hname h]

end Route

end PowerZones
