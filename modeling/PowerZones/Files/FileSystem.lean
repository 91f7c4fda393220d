import PowerZones.Files.Route

/-!
# File systems

A file system is a table of nodes. A node keeps its place in the table for
good, so a file that has lost its name is still there for whoever has it open.
Directories know their entries and their parent; permissions are those of the
owner of every node.

* **`Directory`** holds each name at most once, and only proper names.
* **`FileSystem.search`** looks into a directory, if the permissions allow it.
-/

namespace PowerZones

/-- A place in the table of nodes. -/
abbrev NodeId := Nat

/-- What the owner of a node may do with it. -/
structure Permissions where
  read : Bool
  write : Bool
  /-- Run a file, or look up names in a directory. -/
  search : Bool
  deriving DecidableEq, Repr

/-- The permissions that the owner's bits of a mode grant. -/
def Permissions.ofMode (mode : Nat) : Permissions where
  read := mode / 256 % 2 = 1
  write := mode / 128 % 2 = 1
  search := mode / 64 % 2 = 1

/-- A directory: each entry has a proper name of its own. -/
structure Directory where
  permissions : Permissions
  parent : NodeId
  entries : List (Name × NodeId)
  nodup : (entries.map Prod.fst).Nodup
  proper : ∀ e ∈ entries, e.1.proper = true

/-- A device that every system has. -/
inductive Device where
  /-- Holds nothing and takes everything. -/
  | null
  /-- Holds NULs without end and takes nothing. -/
  | full
  deriving DecidableEq, Repr

/-- What a place of the table holds. -/
inductive Node where
  | file (permissions : Permissions) (bytes : List UInt8)
  | directory (d : Directory)
  | link (target : String)
  | device (d : Device)

/-- A table of nodes, with the directory at the top and the one that relative
paths start from. -/
structure FileSystem where
  nodes : Array Node
  top : NodeId
  current : NodeId

/-- Who asks: the owner, bound by the permissions, or a privileged caller. -/
inductive Caller where
  | owner
  | privileged
  deriving DecidableEq, Repr

namespace Directory

/-- A directory without entries. -/
def empty (permissions : Permissions) (parent : NodeId) : Directory where
  permissions := permissions
  parent := parent
  entries := []
  nodup := List.nodup_nil
  proper := by simp

/-- The node that an entry leads to. -/
def find? (d : Directory) (name : Name) : Option NodeId :=
  d.entries.lookup name

/-- The directory without the entry of that name. -/
def erase (d : Directory) (name : Name) : Directory where
  permissions := d.permissions
  parent := d.parent
  entries := d.entries.filter fun e => e.1 ≠ name
  nodup := d.nodup.sublist ((List.filter_sublist).map Prod.fst)
  proper e he := d.proper e (List.mem_filter.mp he).1

/-- The directory with an entry of that name, in place of any it had. -/
def insert (d : Directory) (name : Name) (id : NodeId) (h : name.proper = true) : Directory where
  permissions := d.permissions
  parent := d.parent
  entries := (name, id) :: (d.erase name).entries
  nodup := by
    rw [List.map_cons, List.nodup_cons]
    refine ⟨?_, (d.erase name).nodup⟩
    intro hmem
    obtain ⟨e, he, hname⟩ := List.mem_map.mp hmem
    have hne : e.1 ≠ name := by simpa using (List.mem_filter.mp he).2
    exact hne hname
  proper e he := by
    rcases List.mem_cons.mp he with rfl | he
    · exact h
    · exact (d.erase name).proper e he

end Directory

namespace FileSystem

/-- The node at a place of the table. -/
def node? (fs : FileSystem) (id : NodeId) : Option Node :=
  fs.nodes[id]?

/-- The directory at a place of the table. -/
def directory? (fs : FileSystem) (id : NodeId) : Option Directory :=
  match fs.node? id with
  | some (.directory d) => some d
  | _ => none

/-- What the link at a place of the table points to. -/
def link? (fs : FileSystem) (id : NodeId) : Option String :=
  match fs.node? id with
  | some (.link target) => some target
  | _ => none

/-- The directory at a place of the table, to look up names in it. -/
def search (fs : FileSystem) (caller : Caller) (id : NodeId) : Except OsError Directory :=
  match fs.directory? id with
  | none => .error .notDirectory
  | some d =>
    if caller = .privileged ∨ d.permissions.search = true then .ok d else .error .accessDenied

/-- The table with another node at a place. -/
def setNode (fs : FileSystem) (id : NodeId) (node : Node) : FileSystem :=
  { fs with nodes := fs.nodes.setIfInBounds id node }

/-- The table with one more node, and its place. -/
def addNode (fs : FileSystem) (node : Node) : FileSystem × NodeId :=
  ({ fs with nodes := fs.nodes.push node }, fs.nodes.size)

end FileSystem

end PowerZones
