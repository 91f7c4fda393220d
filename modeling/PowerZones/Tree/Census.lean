import PowerZones.Tree.Existence

/-!
# What a listing shows

Control types and zones as the directories show them, rather than by probing.

* **`Tree.zoneIndices`** reads the index out of each directory name that goes
  on from that of the parent.
* **`Tree.controlTypes`** takes every directory name that could be one of a
  control type. The class directory also shows every zone at its top level;
  those names have a colon and are left out.
-/

namespace PowerZones

/-- The rest of a text after a beginning. -/
def afterPrefix? (start text : List Char) : Option (List Char) :=
  if start.isPrefixOf text then some (text.drop start.length) else none

/-- The index that an entry name shows, where it goes on from the given text
with a numeral. -/
def indexAfter? (start : String) (name : Name) : Option UInt32 := do
  let s ← name.text?
  Numeral.index? (← afterPrefix? start.toList s.toList)

/-- The control type that an entry name shows. -/
def controlTypeName? (name : Name) : Option String := do
  let s ← name.text?
  if s.toList.contains ':' || !plainComponent s then none else some s

namespace Tree

/-- The indices of the zones directly below an address, in ascending order; an
index shown by several entries is listed as often. -/
def zoneIndices (t : Tree) (fs : FileSystem) (parent : Address) :
    Except Failure (List UInt32) :=
  match t.zonePath parent with
  | .error e => .error e
  | .ok path =>
    if fs.isDirectory path then
      match fs.subdirectories path with
      | .error why => .error (.unlisted why)
      | .ok names =>
        .ok ((names.filterMap (indexAfter? parent.childPrefix)).mergeSort fun i j => i ≤ j)
    else .ok []

/-- The names of all control types, in ascending order. -/
def controlTypes (t : Tree) (fs : FileSystem) : Except Failure (List String) :=
  match fs.subdirectories t.root with
  | .error why => .error (.unlisted why)
  | .ok names => .ok ((names.filterMap controlTypeName?).mergeSort fun s u => s ≤ u)

end Tree

end PowerZones
