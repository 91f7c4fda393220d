import PowerZones.Tree.OneShot

/-!
# Slots

A handle keeps one slot for each attribute. A slot is absent, because the file
did not exist when the handle was opened or because the handle was closed, or
it is open, with a descriptor of its own.

* **`FileSystem.judge`** decides what becomes of a slot, by looking at the file
  system alone.
* **`Tree.openSlot`** acts on the decision: it opens the descriptor, or makes
  the record that says why there is none.
* **`Slots.open`** opens one slot for each attribute of a list; if one fails,
  those opened before are closed.
-/

namespace PowerZones

/-- How a slot came to be open. -/
inductive Grant where
  /-- For reading and writing. -/
  | readWrite
  /-- For reading, as it was asked. -/
  | readOnly
  /-- For reading, because writing was asked and denied. -/
  | readOnlyFallback
  deriving DecidableEq, Repr

/-- The slot of a handle for one attribute. -/
inductive Slot where
  | absent
  | opened (descriptor : DescriptorId) (path : String) (grant : Grant)
  deriving DecidableEq, Repr

/-- What becomes of a slot. -/
inductive Verdict where
  /-- There is no file. -/
  | missing
  /-- The node may be opened, and how. -/
  | granted (node : NodeId) (access : Access) (grant : Grant)
  /-- The file cannot be opened; `retried` if reading alone was tried last. -/
  | refused (retried : Bool) (why : OsError)
  deriving DecidableEq, Repr

/-- Whether an attribute that may not be written is opened for reading
instead: only the energy counter, which some control types let nobody reset. -/
def Attribute.fallsBack : Attribute → Bool
  | .zone .energy => true
  | _ => false

/-- What becomes of a slot for a path, asked for writing or not, with or
without falling back to reading when writing is denied. -/
def FileSystem.judge (fs : FileSystem) (path : String) (write fallback : Bool) : Verdict :=
  match fs.access path (if write then .readWrite else .read) with
  | .ok node =>
    if write then .granted node .readWrite .readWrite else .granted node .read .readOnly
  | .error .noEntry => .missing
  | .error why =>
    if why = .accessDenied ∧ write = true ∧ fallback = true then
      match fs.access path .read with
      | .ok node => .granted node .read .readOnlyFallback
      | .error why => .refused true why
    else .refused false why

/-- The record of an error on opening a path. -/
def openingText (retried : Bool) (path : String) (why : OsError) : String :=
  (if retried then "open (RO): " else "open: ") ++ path ++ ": " ++ why.message

/-- Opens the slot for an attribute at an address. -/
def Tree.openSlot (t : Tree) (a : Address) (attr : Attribute) (write : Bool) : Action Slot := do
  let path ← Action.ofExcept (t.attributePath a attr)
  let verdict ← Action.query fun fs => .ok (fs.judge path write attr.fallsBack)
  match verdict with
  | .granted node access grant =>
    let descriptor ← Action.openNode node access
    return .opened descriptor path grant
  | .missing =>
    Action.note t.logger .debug (openingText false path .noEntry)
    return .absent
  | .refused retried why =>
    Action.note t.logger .error (openingText retried path why)
    Action.fail (.ofOpening path why)

namespace Slot

/-- Whether the slot is open. -/
def isOpen : Slot → Bool
  | .absent => false
  | .opened _ _ _ => true

/-- The descriptor of an open slot. -/
def descriptor? : Slot → Option DescriptorId
  | .absent => none
  | .opened descriptor _ _ => some descriptor

/-- Reads the slot as a number. -/
def readNumber : Slot → Action UInt64
  | .absent => Action.fail .unsupported
  | .opened descriptor _ _ => Action.readNumber descriptor

/-- Reads the slot as a name. -/
def readName : Slot → Action String
  | .absent => Action.fail .unsupported
  | .opened descriptor _ _ => Action.readText descriptor Field.nameSize

/-- Writes a number to the slot. -/
def writeNumber (v : UInt64) : Slot → Action Unit
  | .absent => Action.fail .unsupported
  | .opened descriptor path grant =>
    if grant = .readWrite then Action.writeNumber descriptor v
    else Action.fail (.permissionDenied path .openedReadOnly)

/-- Closes the slot, which is absent then. -/
def close : Slot → Action Unit
  | .absent => pure ()
  | .opened descriptor _ _ => Action.close descriptor

end Slot

/-! ## Tables of slots -/

/-- A slot for each of some attributes, in their order. -/
abbrev Slots (α : Type) := List (α × Slot)

namespace Slots

variable {α : Type} [DecidableEq α]

/-- The slot for an attribute. -/
def slot (slots : Slots α) (a : α) : Slot :=
  (slots.lookup a).getD .absent

/-- The descriptors of the open slots. -/
def descriptors (slots : Slots α) : List DescriptorId :=
  slots.filterMap fun s => s.2.descriptor?

/-- The same attributes with no slot open. -/
def closed (slots : Slots α) : Slots α :=
  slots.map fun s => (s.1, .absent)

omit [DecidableEq α] in
/-- Opens a slot for each attribute of a list, in order. -/
def openAll (openOne : α → Action Slot) : List α → Action (Slots α)
  | [] => pure []
  | a :: rest => do
    let slot ← openOne a
    let slots ← (openAll openOne rest).onFailure slot.close
    return (a, slot) :: slots

/-- Closes every slot. -/
def closeAll : Slots α → Action Unit
  | [] => pure ()
  | s :: rest => do
    s.2.close
    closeAll rest

end Slots

end PowerZones
