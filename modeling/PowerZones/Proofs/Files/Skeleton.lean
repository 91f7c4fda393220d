import PowerZones.Files.Content

/-!
# Entries and contents

Where a path leads, and what the node there may be opened for, does not depend on what
the regular files hold.

* **`FileSystem.skeleton`** is a file system without the contents of its files;
* **`FileSystem.walk_skeleton`**: walks are the same in both, link by link;
* **`FileSystem.access_of_skeleton`**: file systems with one skeleton give access to the
  same nodes.
-/

namespace PowerZones

/-- A node without the bytes of a regular file. -/
def Node.blank : Node → Node
  | .file permissions _ => .file permissions []
  | node => node

/-- A file system without the bytes of its regular files: what is left are the
entries of directories, the links, and the permissions. -/
def FileSystem.skeleton (fs : FileSystem) : FileSystem :=
  { fs with nodes := fs.nodes.map Node.blank }

namespace FileSystem

variable {fs : FileSystem} {caller : Caller} {followLast : Bool}

theorem node?_skeleton (fs : FileSystem) (id : NodeId) :
    fs.skeleton.node? id = (fs.node? id).map Node.blank := by
  simp [node?, skeleton]

@[simp] theorem directory?_skeleton (fs : FileSystem) (id : NodeId) :
    fs.skeleton.directory? id = fs.directory? id := by
  simp only [directory?, node?_skeleton]
  rcases fs.node? id with _ | node
  · rfl
  · cases node <;> rfl

@[simp] theorem link?_skeleton (fs : FileSystem) (id : NodeId) :
    fs.skeleton.link? id = fs.link? id := by
  simp only [link?, node?_skeleton]
  rcases fs.node? id with _ | node
  · rfl
  · cases node <;> rfl

@[simp] theorem step_skeleton (place : NodeId) (segment : Segment) :
    fs.skeleton.step caller place segment = fs.step caller place segment := by
  cases segment <;> simp only [step, search, directory?_skeleton]

theorem walkWith_skeleton {expand expand' : NodeId → String → List Segment → Except OsError NodeId}
    (hexpand : ∀ place target rest, expand' place target rest = expand place target rest)
    (segments : List Segment) (place : NodeId) :
    fs.skeleton.walkWith caller followLast expand' segments place =
      fs.walkWith caller followLast expand segments place := by
  induction segments generalizing place with
  | nil => rfl
  | cons segment rest ih => simp only [walkWith, step_skeleton, link?_skeleton, hexpand, ih]

theorem walk_skeleton (links : Nat) (segments : List Segment) (place : NodeId) :
    fs.skeleton.walk caller followLast links segments place =
      fs.walk caller followLast links segments place := by
  induction links generalizing segments place with
  | zero => exact walkWith_skeleton (fun _ _ _ => rfl) segments place
  | succ links ih => exact walkWith_skeleton (fun _ _ _ => ih _ _) segments place

theorem locate_skeleton (fs : FileSystem) (followLast : Bool) (path : String) :
    fs.skeleton.locate followLast path = fs.locate followLast path := by
  simp only [locate, follow, walk_skeleton]
  rfl

theorem permit_skeleton (fs : FileSystem) (id : NodeId) (mode : Access) :
    fs.skeleton.permit id mode = fs.permit id mode := by
  simp only [permit, node?_skeleton]
  rcases fs.node? id with _ | node
  · rfl
  · cases node <;> rfl

theorem access_skeleton (fs : FileSystem) (path : String) (mode : Access) :
    fs.skeleton.access path mode = fs.access path mode := by
  simp only [access, locate_skeleton, permit_skeleton]

/-- Whoever has the same entries and permissions gives access to the same nodes. -/
theorem access_of_skeleton {fs fs' : FileSystem} (h : fs'.skeleton = fs.skeleton) (path : String)
    (mode : Access) : fs'.access path mode = fs.access path mode := by
  rw [← fs'.access_skeleton, h, fs.access_skeleton]

end FileSystem

end PowerZones
