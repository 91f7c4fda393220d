/-!
# Refused arguments

Why an argument is refused before anything is looked up. Each constructor is
one cause; `Refusal.message` words it.
-/

namespace PowerZones

/-- How a member of a closed vocabulary was asked for. -/
inductive Designation where
  | number (n : UInt32)
  | word (s : String)
  deriving DecidableEq, Repr

/-- The wording of a designation: a number bare, a word in back quotes. -/
def Designation.message : Designation → String
  | .number n => Nat.repr n.toNat
  | .word s => "`" ++ s ++ "`"

/-- Why an argument is refused. -/
inductive Refusal where
  /-- The control type is not one plain path component. -/
  | controlTypeName (name : String)
  /-- A zone path has more levels than are allowed. -/
  | tooDeep (levels limit : Nat)
  /-- A zone is at the last allowed level, so it has no zones of its own. -/
  | noLevelBelow
  /-- A control type attribute was asked of a zone. -/
  | notInZone (fileName : String)
  /-- A text was to be read into no space at all. -/
  | emptyBuffer
  /-- No member of a vocabulary is so designated. -/
  | unknown (what : String) (given : Designation)
  /-- The named attribute is never written. -/
  | neverWritten (what : String) (name : String)
  deriving DecidableEq, Repr

/-- The wording of a refusal. -/
def Refusal.message : Refusal → String
  | .controlTypeName name => "invalid control type name: `" ++ name ++ "`"
  | .tooDeep levels limit =>
    "zone path is too deep: " ++ Nat.repr levels ++ " > " ++ Nat.repr limit
  | .noLevelBelow => "zone path is too deep"
  | .notInZone fileName => fileName ++ " is a control type file"
  | .emptyBuffer => "name buffer size must not be zero"
  | .unknown what given => what ++ ": " ++ given.message
  | .neverWritten what name => what ++ ": " ++ name

end PowerZones
