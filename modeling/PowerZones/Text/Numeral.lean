import PowerZones.Text.Blank

/-!
# Numerals

Two readings of a numeral in text.

* **`Numeral.auto?`** reads the longest numeral at the start of a text, after
  blanks and at most one `+`. A numeral announces its own base: `0x` or `0X`
  before a hexadecimal digit is base 16, another leading `0` is base 8, and
  anything else is base 10. What follows the digits is ignored.
* **`Numeral.index?`** reads a whole text as a decimal index, with at most one
  leading `+` and any number of leading zeros.

Both refuse a value that does not fit their word.
-/

namespace PowerZones.Numeral

/-- The base a numeral is written in. -/
inductive Base where
  | octal
  | decimal
  | hexadecimal
  deriving DecidableEq, Repr

/-- The number of digits of a base. -/
def Base.size : Base → Nat
  | .octal => 8
  | .decimal => 10
  | .hexadecimal => 16

/-- The value of a digit character, and 16 for a character that is no digit. -/
def digitValue (c : Char) : Nat :=
  if '0' ≤ c ∧ c ≤ '9' then c.toNat - '0'.toNat
  else if 'a' ≤ c ∧ c ≤ 'f' then c.toNat - 'a'.toNat + 10
  else if 'A' ≤ c ∧ c ≤ 'F' then c.toNat - 'A'.toNat + 10
  else 16

/-- Whether `c` is a digit of the base. Only ASCII characters are. -/
def Base.isDigit (base : Base) (c : Char) : Bool :=
  digitValue c < base.size

/-- The positional value of a run of digits. -/
def Base.value (base : Base) (digits : List Char) : Nat :=
  digits.foldl (fun n c => n * base.size + digitValue c) 0

/-- A text without at most one leading `+`. -/
def dropPlus : List Char → List Char
  | '+' :: rest => rest
  | cs => cs

/-- The base that a text announces, and the text from its first digit on. -/
def announced : List Char → Base × List Char
  | '0' :: x :: d :: rest =>
    if (x = 'x' ∨ x = 'X') ∧ Base.hexadecimal.isDigit d then (.hexadecimal, d :: rest)
    else (.octal, '0' :: x :: d :: rest)
  | '0' :: rest => (.octal, '0' :: rest)
  | cs => (.decimal, cs)

/-- The number at the start of a text, in the base it announces, or `none` if
no digit stands there or the value does not fit 64 bits. -/
def auto? (text : List Char) : Option UInt64 :=
  let (base, rest) := announced (dropPlus (text.dropWhile Text.isBlank))
  let digits := rest.takeWhile base.isDigit
  if digits = [] then none
  else if base.value digits < UInt64.size then some (UInt64.ofNat (base.value digits))
  else none

/-- The index that a whole text spells in decimal, or `none` if it spells none
or one that does not fit 32 bits. -/
def index? (text : List Char) : Option UInt32 :=
  let digits := dropPlus text
  if digits = [] ∨ digits.all Base.decimal.isDigit = false then none
  else if Base.decimal.value digits < UInt32.size then
    some (UInt32.ofNat (Base.decimal.value digits))
  else none

end PowerZones.Numeral
