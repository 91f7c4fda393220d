/-!
# Blank characters

The characters with the Unicode property `White_Space`, as inclusive ranges of
code points. Numerals in attribute files may be preceded by any of them.
-/

namespace PowerZones.Text

/-- The code points with the property `White_Space`, in ascending ranges. -/
def blankRanges : List (Nat × Nat) :=
  [(0x0009, 0x000D), (0x0020, 0x0020), (0x0085, 0x0085), (0x00A0, 0x00A0),
   (0x1680, 0x1680), (0x2000, 0x200A), (0x2028, 0x2029), (0x202F, 0x202F),
   (0x205F, 0x205F), (0x3000, 0x3000)]

/-- Whether `c` has the property `White_Space`. -/
def isBlank (c : Char) : Bool :=
  blankRanges.any fun range => range.1 ≤ c.toNat && c.toNat ≤ range.2

end PowerZones.Text
