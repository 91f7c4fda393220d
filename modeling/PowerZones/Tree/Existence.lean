import PowerZones.Tree.Address

/-!
# What exists

A zone exists if its directory does, a constraint if its power limit does.
Links are followed, and whatever cannot be looked at does not exist.

* **`Tree.zoneCount`** and **`Tree.constraintCount`** probe the indices 0, 1,
  2, … up to the first that does not exist. Each index that exists has an entry
  of its own in the directory probed, so the number of entries bounds the
  probing.
-/

namespace PowerZones

/-- The number of entries of the directory that a path leads to. -/
def FileSystem.entryCount (fs : FileSystem) (path : String) : Nat :=
  match fs.locate true path with
  | .error _ => 0
  | .ok id =>
    match fs.directory? id with
    | none => 0
    | some d => d.entries.length

/-- The first index from `index` on that is not present; at most `bound`
indices are probed. -/
def probe (present : UInt32 → Except Failure Bool) : Nat → UInt32 → Except Failure UInt32
  | 0, index => .ok index
  | bound + 1, index =>
    match present index with
    | .error e => .error e
    | .ok true => probe present bound (index + 1)
    | .ok false => .ok index

namespace Tree

/-- Whether a zone exists. -/
def zoneExists (t : Tree) (fs : FileSystem) (a : Address) : Except Failure Bool := do
  let path ← t.zonePath a
  return fs.isDirectory path

/-- Whether a control type exists. -/
def controlTypeExists (t : Tree) (fs : FileSystem) (controlType : String) : Except Failure Bool :=
  t.zoneExists fs { controlType := controlType }

/-- Whether the constraint with the given number exists at a zone. -/
def constraintExists (t : Tree) (fs : FileSystem) (a : Address) (number : UInt32) :
    Except Failure Bool := do
  let path ← t.attributePath a (.constraint number .powerLimit)
  return fs.isRegularFile path

/-- The greatest number of indices that probing at an address can take: one
for each entry, and one more. -/
def probeBound (t : Tree) (fs : FileSystem) (a : Address) : Nat :=
  match t.zonePath a with
  | .ok path => fs.entryCount path + 1
  | .error _ => 1

/-- The number of zones directly below an address, without a gap. -/
def zoneCount (t : Tree) (fs : FileSystem) (parent : Address) : Except Failure UInt32 :=
  if parent.zones.length ≥ maxDepth then .error (.refused .noLevelBelow)
  else probe (fun index => t.zoneExists fs (parent.child index)) (t.probeBound fs parent) 0

/-- The number of constraints of a zone, without a gap. -/
def constraintCount (t : Tree) (fs : FileSystem) (a : Address) : Except Failure UInt32 :=
  probe (t.constraintExists fs a) (t.probeBound fs a) 0

end Tree

end PowerZones
