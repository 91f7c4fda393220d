/-!
# Operating system errors

The errors with which the operating system answers a request on a file, and
their wording. They are those that a tree of files, links and permission bits
can produce; the module on hosts names what is left out.
-/

namespace PowerZones

/-- Why a request on a file fails. -/
inductive OsError where
  /-- Nothing has that name. -/
  | noEntry
  /-- The descriptor is not open for this. -/
  | badDescriptor
  /-- The permissions do not allow it (`EACCES`). Access that is denied for want
  of privilege (`EPERM`) would be treated alike, but for its wording. -/
  | accessDenied
  /-- Something on the way is no directory. -/
  | notDirectory
  /-- A directory has no bytes to read or write. -/
  | isDirectory
  /-- The device is full. -/
  | noSpace
  /-- A component or the whole path is too long. -/
  | nameTooLong
  /-- Following links does not come to an end. -/
  | tooManyLinks
  /-- The path holds a NUL, so it never reaches the system. -/
  | embeddedNul
  deriving DecidableEq, Repr

/-- The wording of an error. -/
def OsError.message : OsError → String
  | .noEntry => "No such file or directory (os error 2)"
  | .badDescriptor => "Bad file descriptor (os error 9)"
  | .accessDenied => "Permission denied (os error 13)"
  | .notDirectory => "Not a directory (os error 20)"
  | .isDirectory => "Is a directory (os error 21)"
  | .noSpace => "No space left on device (os error 28)"
  | .nameTooLong => "File name too long (os error 36)"
  | .tooManyLinks => "Too many levels of symbolic links (os error 40)"
  | .embeddedNul => "file name contained an unexpected NUL byte"

end PowerZones
