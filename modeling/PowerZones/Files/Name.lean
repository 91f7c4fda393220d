import PowerZones.Text.Utf8

/-!
# Entry names

The name of a directory entry is a string of bytes. Where the bytes are
UTF-8 they are kept as text, and only other names are kept raw, so that equal
names are equal values and a name read as text is simply its text.
-/

namespace PowerZones

/-- The name of a directory entry. -/
inductive Name where
  /-- A name whose bytes are UTF-8. -/
  | text (s : String)
  /-- A name whose bytes are not UTF-8. -/
  | raw (bytes : List UInt8)
  deriving DecidableEq, Repr

namespace Name

/-- The name with the given bytes. -/
def ofBytes (bytes : List UInt8) : Name :=
  match String.fromUTF8? ⟨bytes.toArray⟩ with
  | some s => .text s
  | none => .raw bytes

/-- The name as text, if it is text. -/
def text? : Name → Option String
  | .text s => some s
  | .raw _ => none

/-- The length of the name, in bytes. -/
def size : Name → Nat
  | .text s => s.utf8ByteSize
  | .raw bytes => bytes.length

/-- The name as it is shown, with replacement characters where it is no text. -/
def display : Name → String
  | .text s => s
  | .raw bytes => String.ofList (Text.Utf8.decodeLossy bytes)

/-- The greatest length of a name, in bytes. -/
def maxSize : Nat := 255

/-- Whether a directory can hold an entry of that name: not empty, not one of
the two names that every directory has, not too long, without slash or NUL. -/
def proper : Name → Bool
  | .text s =>
    s ≠ "" && s ≠ "." && s ≠ ".." && s.utf8ByteSize ≤ maxSize &&
      !s.toList.contains '/' && !s.toList.contains '\x00'
  | .raw bytes => bytes.length ≤ maxSize && !bytes.contains 0x2F && !bytes.contains 0

end Name

end PowerZones
