import PowerZones.Files.Content

/-!
# Changes from outside

The file system also changes under the hands of others: files, directories and
links are made, removed, renamed, rewritten, and get other permissions.

* **`FileSystem.fresh`** is the file system to start from: an empty working
  directory, and the two devices.
* **`Edit`** is one change, and **`Edit.apply`** makes it. Whoever makes it is
  not bound by permissions.
-/

namespace PowerZones

/-- A change of the file system from outside. -/
inductive Edit where
  /-- Make a regular file, or rewrite the one that is there. -/
  | file (route : Route) (bytes : List UInt8) (permissions : Permissions)
  /-- Make a directory, or take the one that is there. -/
  | directory (route : Route) (permissions : Option Permissions)
  /-- Make a link. -/
  | link (route : Route) (target : String)
  /-- Remove an entry, with all below it. -/
  | remove (route : Route)
  /-- Give an entry another place, which it takes from whatever is there. -/
  | rename (source destination : Route)
  /-- Give a file or directory other permissions. -/
  | setPermissions (route : Route) (permissions : Permissions)

namespace FileSystem

/-- All permissions of a directory. -/
def openPermissions : Permissions :=
  ⟨true, true, true⟩

/-- An empty working directory, somewhere below a top directory that holds the
two devices. -/
def fresh : FileSystem :=
  let node (parent : NodeId) : List (String × NodeId) → Directory :=
    List.foldl
      (fun d e => if h : (Name.text e.1).proper = true then d.insert (.text e.1) e.2 h else d)
      (.empty openPermissions parent)
  { nodes := #[
      .directory (node 0 [("dev", 1), ("tmp", 4)]),
      .directory (node 0 [("null", 2), ("full", 3)]),
      .device .null,
      .device .full,
      .directory (node 0 [("work", 5)]),
      .directory (node 4 [])]
    top := 0
    current := 5 }

/-- The node where a route starts. -/
def start (fs : FileSystem) (route : Route) : NodeId :=
  if route.absolute then fs.top else fs.current

/-- The node that an entry of a directory leads to, links followed. -/
def lookup (fs : FileSystem) (place : NodeId) (segment : Segment) : Except OsError NodeId :=
  fs.walk .privileged true maxLinks [segment] place

/-- The file system with an entry put into the directory at a place. -/
def attach (fs : FileSystem) (place : NodeId) (name : Name) (id : NodeId) :
    Except OsError FileSystem :=
  match fs.directory? place with
  | none => .error .notDirectory
  | some d =>
    if h : name.proper = true then .ok (fs.setNode place (.directory (d.insert name id h)))
    else .error .nameTooLong

/-- The file system with an entry taken from the directory at a place. -/
def detach (fs : FileSystem) (place : NodeId) (name : Name) : Except OsError FileSystem :=
  match fs.directory? place with
  | none => .error .notDirectory
  | some d => .ok (fs.setNode place (.directory (d.erase name)))

/-- The file system with a new node under a name in the directory at a place. -/
def create (fs : FileSystem) (place : NodeId) (name : Name) (node : Node) :
    Except OsError (FileSystem × NodeId) := do
  let (grown, id) := fs.addNode node
  let attached ← grown.attach place name id
  return (attached, id)

/-- The directory at the end of some segments, with every directory on the way
made where nothing has its name. -/
def ensureDirectory (fs : FileSystem) :
    List Segment → NodeId → Except OsError (FileSystem × NodeId)
  | [], place => .ok (fs, place)
  | segment :: rest, place =>
    match segment, fs.lookup place segment with
    | _, .ok id => fs.ensureDirectory rest id
    | .entry name, .error .noEntry => do
      let (made, id) ← fs.create place name (.directory (.empty openPermissions place))
      made.ensureDirectory rest id
    | _, .error e => .error e

/-- The file system with the directory that is to hold the last entry of a
route, its place, and the name of that entry. -/
def ensureParent (fs : FileSystem) (route : Route) :
    Except OsError (FileSystem × NodeId × Name) :=
  match route.segments.getLast? with
  | some (.entry name) => do
    let (made, place) ← fs.ensureDirectory route.segments.dropLast (fs.start route)
    return (made, place, name)
  | _ => .error .isDirectory

/-- The place of the directory that holds the last entry of a route, and the
name of that entry. -/
def parentEntry (fs : FileSystem) (route : Route) : Except OsError (NodeId × Name) :=
  match route.segments.getLast? with
  | some (.entry name) => do
    let place ← fs.walk .privileged true maxLinks route.segments.dropLast (fs.start route)
    return (place, name)
  | _ => .error .isDirectory

/-- The node that an entry of a directory is, links not followed. -/
def entry (fs : FileSystem) (place : NodeId) (name : Name) : Except OsError NodeId :=
  fs.walk .privileged false maxLinks [.entry name] place

/-- Where a file written under a name comes to be: a link under that name, even
one that leads nowhere, stands for the place it points to. At most `links`
links are followed. -/
def writtenAt (fs : FileSystem) : Nat → NodeId → Name → Except OsError (NodeId × Name)
  | 0, _, _ => .error .tooManyLinks
  | links + 1, place, name =>
    match fs.entry place name with
    | .error .noEntry => .ok (place, name)
    | .error e => .error e
    | .ok id =>
      match fs.link? id with
      | none => .ok (place, name)
      | some target =>
        let route := Route.ofText target
        match route.segments.getLast? with
        | some (.entry last) => do
          let next ← fs.walk .privileged true maxLinks route.segments.dropLast
            (if route.absolute then fs.top else place)
          fs.writtenAt links next last
        | _ => .error .isDirectory

/-- The bytes of the regular file at the end of a route. -/
def contents (fs : FileSystem) (route : Route) : Except OsError (List UInt8) :=
  match fs.follow .privileged true route with
  | .error e => .error e
  | .ok id =>
    match fs.node? id with
    | some (.file _ bytes) => .ok bytes
    | _ => .error .isDirectory

/-- The file system with other permissions on a node, if it has any. -/
def setPermissions (fs : FileSystem) (id : NodeId) (permissions : Permissions) : FileSystem :=
  match fs.node? id with
  | some (.file _ bytes) => fs.setNode id (.file permissions bytes)
  | some (.directory d) => fs.setNode id (.directory { d with permissions := permissions })
  | _ => fs

end FileSystem

/-- The file system after a change, or why it cannot be made. -/
def Edit.apply (fs : FileSystem) : Edit → Except OsError FileSystem
  | .file route bytes permissions => do
    let (fs, parent, entryName) ← fs.ensureParent route
    let (place, name) ← fs.writtenAt (FileSystem.maxLinks + 1) parent entryName
    match fs.entry place name with
    | .error .noEntry => return (← fs.create place name (.file permissions bytes)).1
    | .error e => throw e
    | .ok id =>
      match fs.node? id with
      | some (.file _ _) => return fs.setNode id (.file permissions bytes)
      | some (.device .null) => return fs
      | some (.device .full) => throw .noSpace
      | _ => throw .isDirectory
  | .directory route permissions => do
    let (fs, id) ← fs.ensureDirectory route.segments (fs.start route)
    match permissions with
    | none => return fs
    | some permissions => return fs.setPermissions id permissions
  | .link route target => do
    if target = "" then throw .noEntry
    let (fs, place, name) ← fs.ensureParent route
    return (← fs.create place name (.link target)).1
  | .remove route => do
    let (place, name) ← fs.parentEntry route
    let _ ← fs.entry place name
    fs.detach place name
  | .rename source destination => do
    let (place, name) ← fs.parentEntry source
    let id ← fs.entry place name
    let (target, newName) ← fs.parentEntry destination
    let detached ← fs.detach place name
    let moved := match detached.directory? id with
      | some d => detached.setNode id (.directory { d with parent := target })
      | none => detached
    moved.attach target newName id
  | .setPermissions route permissions => do
    let id ← fs.follow .privileged true route
    return fs.setPermissions id permissions

end PowerZones
