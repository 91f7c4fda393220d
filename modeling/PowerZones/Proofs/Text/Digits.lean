import PowerZones.Proofs.Text.Grammar
import Mathlib.Data.List.Basic

/-!
# The digits of a number

The digits that a number is written with in a base are digits of that base, and their value
is the number.

* **`Nat.toList_repr`** in the core library says that a number in decimal is written with
  the digits of `Nat.toDigits`;
* **`Numeral.of_mem_toDigits`** and **`Numeral.ofDigits_toDigits`** say what these are and
  what they are worth, for every base up to 16;
* **`Numeral.head?_toDigits_ne`**: only zero is written with a leading `0`;
* **`Numeral.index?_repr`**: an index in decimal is read as that index;
* **`Numeral.size_repr`**: a number in decimal takes a byte for each digit.
-/

namespace PowerZones.Numeral

variable {b n : Nat} {c : Char} {cs : List Char}

/-! ## Every base -/

/-- What holds of the digits of a base holds of every digit of a number. -/
theorem of_mem_toDigits (P : Char → Prop) (hb : 1 < b) (hall : ∀ k < b, P (Nat.digitChar k))
    (h : c ∈ Nat.toDigits b n) : P c := by
  induction n using Nat.strongRecOn with
  | ind n ih =>
    by_cases hlt : n < b
    · rw [Nat.toDigits_of_lt_base hlt, List.mem_singleton] at h
      exact h ▸ hall n hlt
    · rw [Nat.toDigits_of_base_le hb (by omega), List.mem_append, List.mem_singleton] at h
      rcases h with h | rfl
      · exact ih _ (Nat.div_lt_self (by omega) hb) h
      · exact hall _ (Nat.mod_lt n (by omega))

/-- The digits of a number in a base have the value of the number. -/
theorem ofDigits_toDigits (hb : 1 < b) (hle : b ≤ 16) (n : Nat) :
    Nat.ofDigits b ((Nat.toDigits b n).reverse.map worth) = n := by
  have hworth : ∀ k < 16, worth (Nat.digitChar k) = k := by decide
  induction n using Nat.strongRecOn with
  | ind n ih =>
    by_cases hlt : n < b
    · rw [Nat.toDigits_of_lt_base hlt]
      simp [hworth n (by omega)]
    · have hsmaller : n / b < n := Nat.div_lt_self (by omega) hb
      have hlast : n % b < 16 := Nat.lt_of_lt_of_le (Nat.mod_lt n (by omega)) hle
      rw [Nat.toDigits_of_base_le hb (by omega), List.reverse_append, List.reverse_singleton,
        List.singleton_append, List.map_cons, Nat.ofDigits_cons, ih _ hsmaller, hworth _ hlast]
      exact Nat.mod_add_div n b

/-! ## Decimal -/

/-- Only zero is written with a leading `0`. -/
theorem head?_toDigits_ne (h : n ≠ 0) : (Nat.toDigits 10 n).head? ≠ some '0' := by
  induction n using Nat.strongRecOn with
  | ind n ih =>
    by_cases hlt : n < 10
    · have hsmall : ∀ n < 10, n ≠ 0 → [Nat.digitChar n].head? ≠ some '0' := by decide
      rw [Nat.toDigits_of_lt_base hlt]
      exact hsmall n hlt h
    · have hrest : Nat.toDigits 10 n = Nat.toDigits 10 (n / 10) ++ [Nat.digitChar (n % 10)] :=
        Nat.toDigits_of_base_le (by decide) (by omega)
      rw [hrest, List.head?_append_of_ne_nil _ Nat.toDigits_ne_nil]
      exact ih (n / 10) (by omega) (by omega)

theorem mem_decimal_of_mem_toDigits (h : c ∈ Nat.toDigits 10 n) : c ∈ Base.decimal.alphabet :=
  of_mem_toDigits (· ∈ Base.decimal.alphabet) (by decide) (by decide) h

theorem isDigit_of_mem_toDigits (h : c ∈ Nat.toDigits 10 n) : Base.decimal.isDigit c = true :=
  Base.isDigit_iff.mpr (mem_decimal_of_mem_toDigits h)

theorem value_toDigits (n : Nat) : Base.decimal.value (Nat.toDigits 10 n) = n := by
  rw [Base.value_eq_ofDigits fun c hc => mem_decimal_of_mem_toDigits hc]
  exact ofDigits_toDigits (by decide) (by decide) n

/-- An index in decimal is read as that index. -/
theorem index?_repr (i : UInt32) : index? (Nat.repr i.toNat).toList = some i := by
  have hplus : (Nat.toDigits 10 i.toNat).head? ≠ some '+' := by
    intro hhead
    have hdigit := isDigit_of_mem_toDigits (List.mem_of_head? hhead)
    exact absurd hdigit (by decide)
  have hall : (Nat.toDigits 10 i.toNat).all Base.decimal.isDigit = true :=
    List.all_eq_true.mpr fun c hc => isDigit_of_mem_toDigits hc
  rw [Nat.toList_repr, index?, dropPlus_of_head?_ne hplus, value_toDigits,
    if_neg (by simp [hall, Nat.toDigits_ne_nil]), if_pos i.toNat_lt, UInt32.ofNat_toNat]

/-! ## Sizes -/

theorem size_ofList (h : ∀ c ∈ cs, c.isDigit = true) :
    (String.ofList cs).utf8ByteSize = cs.length := by
  induction cs with
  | nil => rfl
  | cons c rest ih =>
    obtain ⟨hc, hrest⟩ := List.forall_mem_cons.mp h
    have hrange : '0' ≤ c ∧ c ≤ '9' := by
      simpa [Char.isDigit, Char.le_def] using hc
    have hsize : c.utf8Size = 1 :=
      Char.utf8Size_eq_one_iff.mpr (UInt32.le_trans hrange.2 (by decide))
    rw [String.ofList_cons, String.utf8ByteSize_append, String.utf8ByteSize_singleton, hsize,
      ih hrest, List.length_cons, Nat.add_comm]

/-- A number in decimal takes a byte for each digit. -/
theorem size_repr (n : Nat) : (Nat.repr n).utf8ByteSize = (Nat.toDigits 10 n).length := by
  rw [← String.ofList_toList (s := Nat.repr n), Nat.toList_repr]
  exact size_ofList fun c hc => Nat.isDigit_of_mem_toDigits (by decide) (by decide) hc

end PowerZones.Numeral
