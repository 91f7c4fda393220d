/-!
# Lossy UTF-8

Bytes are decoded one at a time by a small machine. A sequence that cannot
continue, or that the input cuts short, becomes one replacement character, and
the byte that broke it is looked at again as the start of a new sequence. So
each maximal invalid part costs exactly one replacement character, and every
well-formed sequence comes out as its character.

* **`Sequence`** is a sequence that has begun and still owes bytes.
* **`feed`** takes one byte; **`decodeLossy`** feeds a whole list.
-/

namespace PowerZones.Text.Utf8

/-- What stands in for an invalid part. -/
def replacement : Char := '\uFFFD'

/-- A sequence that has begun: the bits collected so far, the least and the
greatest byte that may come next, and how many bytes are owed after that one. -/
structure Sequence where
  bits : Nat
  low : UInt8
  high : UInt8
  owed : Nat
  deriving DecidableEq, Repr

/-- The sequence that a first byte opens, if it is the first byte of one with
two bytes or more. The bounds of the second byte shut out overlong forms,
surrogates and values above `U+10FFFF`. -/
def Sequence.ofFirst? (b : UInt8) : Option Sequence :=
  if 0xC2 ≤ b ∧ b ≤ 0xDF then some ⟨b.toNat - 0xC0, 0x80, 0xBF, 0⟩
  else if b = 0xE0 then some ⟨0, 0xA0, 0xBF, 1⟩
  else if b = 0xED then some ⟨0xD, 0x80, 0x9F, 1⟩
  else if 0xE1 ≤ b ∧ b ≤ 0xEF then some ⟨b.toNat - 0xE0, 0x80, 0xBF, 1⟩
  else if b = 0xF0 then some ⟨0, 0x90, 0xBF, 2⟩
  else if 0xF1 ≤ b ∧ b ≤ 0xF3 then some ⟨b.toNat - 0xF0, 0x80, 0xBF, 2⟩
  else if b = 0xF4 then some ⟨4, 0x80, 0x8F, 2⟩
  else none

/-- Whether `b` may come next. -/
def Sequence.accepts (s : Sequence) (b : UInt8) : Bool :=
  s.low ≤ b && b ≤ s.high

/-- The bits of the sequence with those of its next byte. -/
def Sequence.append (s : Sequence) (b : UInt8) : Nat :=
  s.bits * 64 + (b.toNat - 0x80)

/-- Characters produced, and the sequence left open, by a byte between
characters. -/
def start (b : UInt8) : List Char × Option Sequence :=
  if b < 0x80 then ([Char.ofNat b.toNat], none)
  else match Sequence.ofFirst? b with
    | some s => ([], some s)
    | none => ([replacement], none)

/-- Characters produced, and the sequence left open, by one byte. -/
def feed : Option Sequence → UInt8 → List Char × Option Sequence
  | none, b => start b
  | some s, b =>
    if s.accepts b then
      match s.owed with
      | 0 => ([Char.ofNat (s.append b)], none)
      | owed + 1 => ([], some ⟨s.append b, 0x80, 0xBF, owed⟩)
    else
      let (chars, state) := start b
      (replacement :: chars, state)

/-- The characters of the bytes that follow an open sequence, or none. -/
def decodeFrom (state : Option Sequence) : List UInt8 → List Char
  | [] => if state.isSome then [replacement] else []
  | b :: rest =>
    let (chars, next) := feed state b
    chars ++ decodeFrom next rest

/-- The characters of a list of bytes, with one replacement character for each
maximal invalid part. -/
def decodeLossy (bytes : List UInt8) : List Char :=
  decodeFrom none bytes

end PowerZones.Text.Utf8
