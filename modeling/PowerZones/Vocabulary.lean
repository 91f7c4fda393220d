import PowerZones.Refusal

/-!
# Closed vocabularies

The attributes of a zone, the domains of a package and their like are closed:
every member is known, has a place in a fixed order and a name of its own.
`Vocabulary` is that property as a class.

* **`ofNumber`** finds a member by its place, **`ofWord`** by its name; both
  refuse what designates no member, and say what was looked for.
-/

namespace PowerZones

/-- A closed list of members, each with a name of its own. -/
class Vocabulary (α : Type) where
  /-- Every member, in its fixed order. -/
  members : List α
  /-- The name of a member. -/
  name : α → String
  /-- What a refusal calls a thing that is no member. -/
  stranger : String
  complete : ∀ a, a ∈ members
  nodup : members.Nodup
  name_injective : ∀ a b, name a = name b → a = b

namespace Vocabulary

variable {α : Type} [Vocabulary α]

/-- The member at a place of the order. -/
def ofNumber (n : UInt32) : Except Refusal α :=
  match (members : List α)[n.toNat]? with
  | some a => .ok a
  | none => .error (.unknown (stranger α) (.number n))

/-- The member with a name. -/
def ofWord (s : String) : Except Refusal α :=
  match (members : List α).find? fun a => name a = s with
  | some a => .ok a
  | none => .error (.unknown (stranger α) (.word s))

/-- The member designated by its place or by its name. -/
def ofDesignation : Designation → Except Refusal α
  | .number n => ofNumber n
  | .word s => ofWord s

end Vocabulary

end PowerZones
