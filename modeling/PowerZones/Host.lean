import PowerZones.Files.Content

/-!
# The host

What operations act on: a file system, and the descriptors that are open on
it. A descriptor gets a number that was never given out before and keeps it
until it is closed, so two descriptors are never taken for one another.

A host answers as a system does on a tree of files, directories, links and two
devices, where permission bits are all that denies access. Limits on resources,
signals and marks such as *immutable* are left out. What they could add to the
answers does not occur here:

* a read or write that is interrupted (`EINTR`);
* a read of a file that has no data to give at the moment (`ENODATA`);
* a write of some of the bytes, or of none without an error;
* access that is denied for want of privilege (`EPERM`), not by permissions
  (`EACCES`);
* closing that fails.

What an operation would do about each of them is said where it is defined.
-/

namespace PowerZones

/-- The number of a descriptor. -/
abbrev DescriptorId := Nat

/-- What a descriptor is open on, and for what. -/
structure OpenFile where
  node : NodeId
  access : Access
  deriving DecidableEq, Repr

/-- The open descriptors. -/
structure Descriptors where
  entries : List (DescriptorId × OpenFile)
  /-- The next number to give out. -/
  next : DescriptorId
  fresh : ∀ e ∈ entries, e.1 < next
  nodup : (entries.map Prod.fst).Nodup

namespace Descriptors

/-- No open descriptors. -/
def empty : Descriptors where
  entries := []
  next := 0
  fresh := by simp
  nodup := List.nodup_nil

/-- What the descriptor with that number is open on. -/
def find? (ds : Descriptors) (id : DescriptorId) : Option OpenFile :=
  ds.entries.lookup id

/-- The number of open descriptors. -/
def size (ds : Descriptors) : Nat :=
  ds.entries.length

/-- One more descriptor, under the next number. -/
def add (ds : Descriptors) (file : OpenFile) : Descriptors where
  entries := (ds.next, file) :: ds.entries
  next := ds.next + 1
  fresh e he := by
    rcases List.mem_cons.mp he with rfl | he
    · exact Nat.lt_succ_self _
    · exact Nat.lt_succ_of_lt (ds.fresh e he)
  nodup := by
    rw [List.map_cons, List.nodup_cons]
    refine ⟨?_, ds.nodup⟩
    intro hmem
    obtain ⟨e, he, hid⟩ := List.mem_map.mp hmem
    exact Nat.lt_irrefl _ (hid ▸ ds.fresh e he)

/-- All descriptors but the one with that number. -/
def erase (ds : Descriptors) (id : DescriptorId) : Descriptors where
  entries := ds.entries.filter fun e => e.1 ≠ id
  next := ds.next
  fresh e he := ds.fresh e (List.mem_filter.mp he).1
  nodup := ds.nodup.sublist ((List.filter_sublist).map Prod.fst)

/-- The number given out leads to what was opened. -/
@[simp] theorem find?_add_self (ds : Descriptors) (file : OpenFile) :
    (ds.add file).find? ds.next = some file := by
  simp [find?, add]

/-- One more descriptor leaves the others alone. -/
theorem find?_add_of_lt (ds : Descriptors) (file : OpenFile) {id : DescriptorId}
    (h : id < ds.next) : (ds.add file).find? id = ds.find? id := by
  have hne : (id == ds.next) = false := by
    simpa using Nat.ne_of_lt h
  simp [find?, add, List.lookup_cons, hne]

/-- An open descriptor has a number that was given out. -/
theorem lt_next_of_mem (ds : Descriptors) {e : DescriptorId × OpenFile} (h : e ∈ ds.entries) :
    e.1 < ds.next :=
  ds.fresh e h

end Descriptors

/-- A file system with the descriptors open on it. -/
structure Host where
  files : FileSystem
  descriptors : Descriptors

namespace Host

/-- A host with no open descriptors. -/
def ofFiles (files : FileSystem) : Host where
  files := files
  descriptors := .empty

/-- The first bytes that a descriptor reads, at most `limit` of them. -/
def read (host : Host) (id : DescriptorId) (limit : Nat) : Except OsError (List UInt8) :=
  match host.descriptors.find? id with
  | some file => if file.access.reads then host.files.read file.node limit else .error .badDescriptor
  | none => .error .badDescriptor

/-- The host after a descriptor has written bytes. -/
def write (host : Host) (id : DescriptorId) (bytes : List UInt8) : Except OsError Host :=
  match host.descriptors.find? id with
  | some file =>
    if file.access.writes then
      (host.files.write file.node bytes).map fun files => { host with files := files }
    else .error .badDescriptor
  | none => .error .badDescriptor

end Host

end PowerZones
