import PowerZones.Field
import PowerZones.Files.Walk

/-!
# Opening, reading and writing

A path is opened for reading, writing or both; what may be done later is fixed
then. All reads and writes start at the beginning of the node.

* **`FileSystem.access`** is what opening a path comes to.
* **`FileSystem.write`** is the only way in which contents change.
-/

namespace PowerZones

/-- What a node is opened for. -/
inductive Access where
  | read
  | write
  | readWrite
  deriving DecidableEq, Repr

/-- Whether a node so opened can be read. -/
def Access.reads : Access → Bool
  | .write => false
  | _ => true

/-- Whether a node so opened can be written. -/
def Access.writes : Access → Bool
  | .read => false
  | _ => true

namespace FileSystem

/-- Whether the permissions of a node allow an access to it. -/
def permits (permissions : Permissions) (access : Access) : Bool :=
  (!access.reads || permissions.read) && (!access.writes || permissions.write)

/-- Whether the node at a place may be opened. A directory is never opened for
writing, whatever its permissions. -/
def permit (fs : FileSystem) (id : NodeId) (access : Access) : Except OsError Unit :=
  match fs.node? id with
  | some (.file permissions _) =>
    if permits permissions access then .ok () else .error .accessDenied
  | some (.directory d) =>
    if access.writes then .error .isDirectory
    else if permits d.permissions access then .ok () else .error .accessDenied
  | some (.device _) => .ok ()
  | some (.link _) => .error .tooManyLinks
  | none => .error .noEntry

/-- The node that opening a path gives access to. -/
def access (fs : FileSystem) (path : String) (access : Access) : Except OsError NodeId :=
  match fs.locate true path with
  | .error e => .error e
  | .ok id => (fs.permit id access).map fun _ => id

/-- The first bytes of a node, at most `limit` of them. -/
def read (fs : FileSystem) (id : NodeId) (limit : Nat) : Except OsError (List UInt8) :=
  match fs.node? id with
  | some (.file _ bytes) => .ok (bytes.take limit)
  | some (.device .null) => .ok []
  | some (.device .full) => .ok (List.replicate limit 0)
  | some (.directory _) => .error .isDirectory
  | some (.link _) | none => .error .badDescriptor

/-- The file system with bytes written over the beginning of a node: all of them,
or none and an error. -/
def write (fs : FileSystem) (id : NodeId) (bytes : List UInt8) : Except OsError FileSystem :=
  match fs.node? id with
  | some (.file permissions old) =>
    .ok (fs.setNode id (.file permissions (Field.overwrite old bytes)))
  | some (.device .null) => .ok fs
  | some (.device .full) => .error .noSpace
  | some (.directory _) | some (.link _) | none => .error .badDescriptor

end FileSystem

end PowerZones
