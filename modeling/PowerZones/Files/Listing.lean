import PowerZones.Files.Content

/-!
# Listing directories

The names of the directories directly below a path, where links count as what
they lead to. The first problem ends the listing.

* **`ListingFault`** says which problem it was, and at which path.
* **`FileSystem.subdirectories`** is the listing.
-/

namespace PowerZones

/-- Why a directory cannot be listed. -/
inductive ListingFault where
  /-- The system refuses something at a path. -/
  | refused (path : String) (e : OsError)
  /-- A directory that a link leads to cannot be opened. -/
  | unopened (e : OsError)
  /-- A link leads back to the listed directory. -/
  | loop (entry listed : String)
  deriving DecidableEq, Repr

/-- The wording of a listing fault. -/
def ListingFault.message : ListingFault → String
  | .refused path e => "IO error for operation on " ++ path ++ ": " ++ e.message
  | .unopened e => e.message
  | .loop entry listed =>
    "File system loop found: " ++ entry ++ " points to an ancestor " ++ listed

namespace FileSystem

/-- The node that an entry of the directory at a path leads to. -/
def locateEntry (fs : FileSystem) (path : String) (name : Name) : Except OsError NodeId :=
  if (join path "").utf8ByteSize + name.size ≥ maxPathSize then .error .nameTooLong
  else
    let route := Route.ofText path
    fs.follow .owner true { route with segments := route.segments ++ [.entry name] }

/-- Whether an entry of the directory `listed` at a path is a directory or a
link to one. -/
def isSubdirectory (fs : FileSystem) (path : String) (listed : NodeId) (entry : Name × NodeId) :
    Except ListingFault Bool :=
  match fs.node? entry.2 with
  | some (.directory _) => .ok true
  | some (.link _) =>
    let entryPath := join path entry.1.display
    match fs.locateEntry path entry.1 with
    | .error e => .error (.refused entryPath e)
    | .ok id =>
      match fs.directory? id, fs.permit id .read with
      | none, _ => .ok false
      | some _, .error e => .error (.unopened e)
      | some _, .ok () => if id = listed then .error (.loop entryPath path) else .ok true
  | _ => .ok false

/-- The names of the entries that are directories or links to one. -/
def listEntries (fs : FileSystem) (path : String) (listed : NodeId) :
    List (Name × NodeId) → Except ListingFault (List Name)
  | [] => .ok []
  | entry :: rest =>
    match fs.isSubdirectory path listed entry with
    | .error why => .error why
    | .ok keep =>
      (fs.listEntries path listed rest).map fun names =>
        if keep then entry.1 :: names else names

/-- The node to list at a path: a link there is followed first. -/
def listingStart (fs : FileSystem) (path : String) : Except ListingFault NodeId :=
  match fs.locate false path with
  | .error e => .error (.refused path e)
  | .ok id =>
    match fs.link? id with
    | none => .ok id
    | some _ =>
      match fs.locate true path with
      | .error e => .error (.refused path e)
      | .ok id =>
        match fs.directory? id, fs.permit id .read with
        | some _, .error e => .error (.unopened e)
        | _, _ => .ok id

/-- The names of the directories directly below a path; none below a path that
leads to no directory. -/
def subdirectories (fs : FileSystem) (path : String) : Except ListingFault (List Name) :=
  match fs.listingStart path with
  | .error why => .error why
  | .ok id =>
    match fs.directory? id with
    | none => .ok []
    | some d =>
      match fs.permit id .read with
      | .error e => .error (.refused path e)
      | .ok () => fs.listEntries path id d.entries

end FileSystem

end PowerZones
