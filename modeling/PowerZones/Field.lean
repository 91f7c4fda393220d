import PowerZones.Text.Numeral
import PowerZones.Text.Utf8

/-!
# Attribute contents

What the bytes of an attribute file mean, and how a number is laid out in one.

* **Reading** always starts at the beginning of the file and takes one byte
  less than its buffer holds. The text ends at the first NUL and loses one
  trailing newline.
* **Writing** lays a number out as decimal digits padded with NULs to a fixed
  width, so a shorter number fully covers a longer one. The file is not cut:
  bytes after the fixed width stay.
-/

namespace PowerZones.Field

/-- Size in bytes of the buffer for a number. -/
def numberSize : Nat := 24

/-- Size in bytes of the buffer for a name. -/
def nameSize : Nat := 64

/-- Why the bytes read hold no value. -/
inductive Fault where
  /-- Nothing was read. -/
  | emptyRead
  /-- The text is no number. -/
  | notNumber (text : String)
  deriving DecidableEq, Repr

/-- The wording of a fault. -/
def Fault.message : Fault → String
  | .emptyRead => "empty read"
  | .notNumber text => "`" ++ text ++ "` is not a u64"

/-- The line that bytes hold: what precedes the first NUL, without one
trailing newline. -/
def line (bytes : List UInt8) : List UInt8 :=
  let kept := bytes.takeWhile (· ≠ 0)
  if kept.getLast? = some 0x0A then kept.dropLast else kept

/-- The text of the line that bytes hold. -/
def lineText (bytes : List UInt8) : List Char :=
  Text.Utf8.decodeLossy (line bytes)

/-- The number that bytes spell, in the base it announces. -/
def number (bytes : List UInt8) : Except Fault UInt64 :=
  if bytes = [] then .error .emptyRead
  else match Numeral.auto? (lineText bytes) with
    | some v => .ok v
    | none => .error (.notNumber (String.ofList (lineText bytes)))

/-- The text that bytes spell. -/
def text (bytes : List UInt8) : Except Fault String :=
  if bytes = [] then .error .emptyRead else .ok (String.ofList (lineText bytes))

/-- The decimal digits of a number, as bytes. -/
def digits (v : UInt64) : List UInt8 :=
  (Nat.toDigits 10 v.toNat).map fun c => UInt8.ofNat c.toNat

/-- A number as it is written: its decimal digits, padded with NULs. -/
def stamp (v : UInt64) : List UInt8 :=
  digits v ++ List.replicate (numberSize - (digits v).length) 0

/-- Bytes written over the beginning of a file. -/
def overwrite (old new : List UInt8) : List UInt8 :=
  new ++ old.drop new.length

end PowerZones.Field
