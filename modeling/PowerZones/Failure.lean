import PowerZones.Files.Listing
import PowerZones.Rapl.Domain

/-!
# Failures

Why an operation on a power capping tree fails. Each constructor is one cause;
`Failure.message` words it, and `Failure.source?` words the cause behind it,
where there is one.
-/

namespace PowerZones

/-- Who denies a permission. -/
inductive Denial where
  /-- The operating system. -/
  | system (e : OsError)
  /-- The slot of the handle, which was opened for reading only. -/
  | openedReadOnly
  deriving DecidableEq, Repr

/-- The wording of a denial. -/
def Denial.message : Denial → String
  | .system e => e.message
  | .openedReadOnly => "opened read-only"

/-- Why an operation fails. -/
inductive Failure where
  /-- An argument is refused before anything is looked up. -/
  | refused (why : Refusal)
  /-- Nothing is there. -/
  | notFound (what : String)
  /-- A path has this many bytes, which is too many. -/
  | pathTooLong (size : Nat)
  | permissionDenied (path : String) (source : Denial)
  /-- What was read holds no value. -/
  | noValue (why : Field.Fault)
  /-- The slot is absent. -/
  | unsupported
  /-- The operating system fails. -/
  | system (e : OsError)
  /-- A directory cannot be listed. -/
  | unlisted (why : ListingFault)
  /-- A zone has a name that tells no domain. -/
  | unrecognizedDomain (name : String)
  /-- A zone of a package is of a domain that was met before. -/
  | duplicateDomain (domain : Domain) (id index : UInt32)
  deriving DecidableEq, Repr

namespace Failure

/-- The wording of a failure. -/
def message : Failure → String
  | .refused why => "Invalid argument: " ++ why.message
  | .notFound what => "Not found: " ++ what
  | .pathTooLong size => "Resolved path is too long, " ++ Nat.repr size ++ " bytes"
  | .permissionDenied path source => "Permission denied for " ++ path ++ ": " ++ source.message
  | .noValue why => "No data available from " ++ why.message
  | .unsupported => "File is not supported by this zone or constraint"
  | .system _ | .unlisted _ => "IO Failed"
  | .unrecognizedDomain name => "Unrecognized zone name `" ++ name ++ "`"
  | .duplicateDomain domain id index =>
    "Duplicate " ++ domain.label ++ " zone detected at " ++ Nat.repr id.toNat ++ ":" ++
      Nat.repr index.toNat

/-- The wording of the cause behind a failure. -/
def source? : Failure → Option String
  | .permissionDenied _ source => some source.message
  | .system e => some e.message
  | .unlisted why => some why.message
  | _ => none

/-- The failure that an error on opening a path comes to. -/
def ofOpening (path : String) : OsError → Failure
  | .accessDenied => .permissionDenied path (.system .accessDenied)
  | e => .system e

end Failure

end PowerZones
