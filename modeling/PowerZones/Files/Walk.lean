import PowerZones.Files.FileSystem

/-!
# Walking a route

To follow a route is to take its segments one after the other. Each step
needs a directory that may be searched; a link on the way puts the route of its
target in front of the segments that remain. At most forty links are followed,
so every walk ends.

* **`FileSystem.step`** takes one segment.
* **`FileSystem.walk`** follows a route, with a bound on the links.
* **`FileSystem.locate`** finds the node that a path names.
-/

namespace PowerZones.FileSystem

/-- The greatest number of links that one walk follows. -/
def maxLinks : Nat := 40

/-- One segment, taken from a node. -/
def step (fs : FileSystem) (caller : Caller) (place : NodeId) :
    Segment → Except OsError NodeId
  | .directoryOnly =>
    match fs.directory? place with
    | some _ => .ok place
    | none => .error .notDirectory
  | .here => (fs.search caller place).map fun _ => place
  | .up => (fs.search caller place).map Directory.parent
  | .entry name =>
    match fs.search caller place with
    | .error e => .error e
    | .ok d =>
      if name.size > Name.maxSize then .error .nameTooLong
      else match d.find? name with
        | some id => .ok id
        | none => .error .noEntry

/-- The segments of a route taken from a node. A link on the way, and one at
the end if `followLast`, is handed to `expand` with the directory it stands in
and the segments that remain. -/
def walkWith (fs : FileSystem) (caller : Caller) (followLast : Bool)
    (expand : NodeId → String → List Segment → Except OsError NodeId) :
    List Segment → NodeId → Except OsError NodeId
  | [], place => .ok place
  | segment :: rest, place =>
    match fs.step caller place segment with
    | .error e => .error e
    | .ok next =>
      match fs.link? next with
      | some target =>
        if rest = [] ∧ followLast = false then .ok next else expand place target rest
      | none => walkWith fs caller followLast expand rest next

/-- The segments of a route taken from a node, following at most `links`
links. -/
def walk (fs : FileSystem) (caller : Caller) (followLast : Bool) :
    Nat → List Segment → NodeId → Except OsError NodeId
  | 0 => fs.walkWith caller followLast fun _ _ _ => .error .tooManyLinks
  | links + 1 => fs.walkWith caller followLast fun place target rest =>
    let route := Route.ofText target
    fs.walk caller followLast links (route.segments ++ rest)
      (if route.absolute then fs.top else place)

/-- The node at the end of a route. -/
def follow (fs : FileSystem) (caller : Caller) (followLast : Bool) (route : Route) :
    Except OsError NodeId :=
  fs.walk caller followLast maxLinks route.segments
    (if route.absolute then fs.top else fs.current)

/-- The node that a path names, for the owner. -/
def locate (fs : FileSystem) (followLast : Bool) (path : String) : Except OsError NodeId :=
  match pathFault? path with
  | some e => .error e
  | none => fs.follow .owner followLast (Route.ofText path)

/-- Whether a path leads to a directory. -/
def isDirectory (fs : FileSystem) (path : String) : Bool :=
  match fs.locate true path with
  | .ok id => (fs.directory? id).isSome
  | .error _ => false

/-- Whether a path leads to a regular file. -/
def isRegularFile (fs : FileSystem) (path : String) : Bool :=
  match fs.locate true path with
  | .ok id =>
    match fs.node? id with
    | some (.file _ _) => true
    | _ => false
  | .error _ => false

end PowerZones.FileSystem
