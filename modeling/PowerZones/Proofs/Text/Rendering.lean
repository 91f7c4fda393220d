import PowerZones.Proofs.Text.Digits
import PowerZones.Proofs.Text.Reach

/-!
# Renderings of a number

A number can be written in decimal, in hexadecimal after `0x` or `0X`, and in octal after
a `0`. Each rendering announces its own base, so it is read as that number, whether
nothing, a newline or a NUL follows it; and each fits the bytes that are read, the octal
one of the greatest numbers exactly.

* **`Numeral.Renders`** are the renderings of a number;
* **`Numeral.Renders.exists_laysOut`**: a rendering is a numeral of the value it renders;
* **`Field.number_of_renders`** reads it back from bytes.
-/

namespace PowerZones

namespace Numeral

variable {v : UInt64} {c : Char} {cs rest : List Char} {base : Base}

/-! ## Renderings -/

/-- A character is a digit of base 16 if it is one in lower case. -/
theorem mem_alphabet_of_toLower (h : c.toLower ∈ "0123456789abcdef".toList) :
    c ∈ Base.hexadecimal.alphabet := by
  by_cases hupper : 'A' ≤ c ∧ c ≤ 'Z'
  · exact of_between (fun c => c.toLower ∈ "0123456789abcdef".toList →
      c ∈ Base.hexadecimal.alphabet) hupper (by decide) h
  · have hlower : c.toLower = c := dif_neg fun hrange => hupper ⟨hrange.1, hrange.2⟩
    have hall : ∀ d ∈ "0123456789abcdef".toList, d ∈ Base.hexadecimal.alphabet :=
      List.all_iff_forall_prop.mp (by decide)
    exact hall c (hlower ▸ h)

/-- The renderings of a number, without leading zeros but those that announce a base. The
digits of base 16 may be in either case. -/
inductive Renders (v : UInt64) : List Char → Prop
  | decimal : Renders v (Nat.toDigits 10 v.toNat)
  | hexadecimal {x : Char} {digits : List Char} (hx : x = 'x' ∨ x = 'X')
      (hdigits : digits.map Char.toLower = Nat.toDigits 16 v.toNat) : Renders v ('0' :: x :: digits)
  | octal : Renders v ('0' :: Nat.toDigits 8 v.toNat)

theorem mem_alphabet_of_hexadecimal {digits : List Char}
    (h : digits.map Char.toLower = Nat.toDigits 16 v.toNat) (hc : c ∈ digits) :
    c ∈ Base.hexadecimal.alphabet := by
  have hlower : c.toLower ∈ Nat.toDigits 16 v.toNat := h ▸ List.mem_map_of_mem hc
  exact mem_alphabet_of_toLower
    (of_mem_toDigits (· ∈ "0123456789abcdef".toList) (by decide) (by decide) hlower)

theorem Renders.goesOn (h : Renders v cs) (hc : c ∈ cs) : GoesOn c := by
  cases h with
  | decimal =>
    exact .inl (of_mem_toDigits (· ∈ Base.hexadecimal.alphabet) (by decide) (by decide) hc)
  | hexadecimal hx hdigits =>
    rcases List.mem_cons.mp hc with rfl | hc
    · exact .inl (by decide)
    rcases List.mem_cons.mp hc with rfl | hc
    · exact .inr hx
    · exact .inl (mem_alphabet_of_hexadecimal hdigits hc)
  | octal =>
    rcases List.mem_cons.mp hc with rfl | hc
    · exact .inl (by decide)
    · exact .inl (of_mem_toDigits (· ∈ Base.hexadecimal.alphabet) (by decide) (by decide) hc)

/-- A rendering takes no more bytes than are read. -/
theorem Renders.length_le (h : Renders v cs) : cs.length ≤ Field.numberSize - 1 := by
  have hlt : v.toNat < 2 ^ 64 := v.toNat_lt
  have hlength (b k : Nat) (hb : 1 < b) (hk : 0 < k) (hpower : 2 ^ 64 ≤ b ^ k) :
      (Nat.toDigits b v.toNat).length ≤ k :=
    (Nat.length_toDigits_le_iff hb hk).mpr (Nat.lt_of_lt_of_le hlt hpower)
  cases h with
  | decimal => exact (hlength 10 20 (by decide) (by decide) (by decide)).trans (by decide)
  | hexadecimal hx hdigits =>
    have hdigits := hdigits ▸ hlength 16 16 (by decide) (by decide) (by decide)
    rw [List.length_map] at hdigits
    exact (Nat.add_le_add_right hdigits 2).trans (by decide)
  | octal => exact Nat.add_le_add_right (hlength 8 22 (by decide) (by decide) (by decide)) 1

/-- A text is a numeral of a value if it begins with a decimal digit and consists of a
mark and digits of that value, with at most a newline to follow. -/
theorem exists_laysOut_of_digits (mark digits : List Char) {d : Char} {n : Nat}
    (hhead : (mark ++ digits).head? = some d) (hd : d ∈ Base.decimal.alphabet)
    (hannounces : Announces mark base (digits ++ rest)) (hdigit : ∀ c ∈ digits, c ∈ base.alphabet)
    (hne : digits ≠ []) (hvalue : Nat.ofDigits base.size (digits.reverse.map worth) = n)
    (hrest : ∀ c, rest.head? = some c → c = '\n') :
    ∃ l : Layout, l.LaysOut (mark ++ (digits ++ rest)) ∧ l.digits ≠ [] ∧ l.value = n := by
  have hfirst : (mark ++ (digits ++ rest)).head? = some d := by
    rw [← List.append_assoc, List.head?_append, hhead]
    rfl
  refine ⟨⟨[], [], mark, base, digits, rest⟩, ?_, hne, hvalue⟩
  constructor
  case text_eq => rfl
  case leads =>
    refine ⟨nofun, fun c hc => ?_, .inr ⟨rfl, fun hplus => ?_⟩⟩
    · obtain rfl := Option.some.inj (hfirst.symm.trans hc)
      have hnone : ∀ d ∈ Base.decimal.alphabet, Text.isBlank d = false :=
        List.all_iff_forall_prop.mp (by decide)
      exact hnone d hd
    · obtain rfl := Option.some.inj (hfirst.symm.trans hplus)
      exact absurd hd (by decide)
  case announces => exact hannounces
  case digit => exact hdigit
  case longest =>
    intro c hc
    have hno (base : Base) : '\n' ∉ base.alphabet := by cases base <;> decide
    exact hrest c hc ▸ hno base

/-- No mark goes on after a `0` with octal digits or a newline. -/
theorem announces_octal {digits : List Char} (hdigit : ∀ c ∈ digits, c ∈ Base.octal.alphabet)
    (hrest : ∀ c, rest.head? = some c → c = '\n') :
    Announces [] .octal ('0' :: digits ++ rest) := by
  refine .octal fun x d more heq hx _ => ?_
  cases digits with
  | nil =>
    have hhead : rest.head? = some x := congrArg List.head? heq
    rw [hrest x hhead] at hx
    exact absurd hx (by decide)
  | cons c ds =>
    have hc : x ∈ Base.octal.alphabet := (List.cons.inj heq).1 ▸ hdigit c List.mem_cons_self
    exact absurd hc (notMem_octal_of_mark hx)

/-- A rendering is a numeral of the value that it renders. -/
theorem Renders.exists_laysOut (h : Renders v cs) (hrest : ∀ c, rest.head? = some c → c = '\n') :
    ∃ l : Layout, l.LaysOut (cs ++ rest) ∧ l.digits ≠ [] ∧ l.value = v.toNat := by
  have hzero : '0' ∈ Base.decimal.alphabet := by decide
  cases h with
  | decimal =>
    by_cases hv : v.toNat = 0
    · -- zero announces base 8
      rw [hv]
      exact exists_laysOut_of_digits [] ['0'] rfl hzero
        (announces_octal nofun hrest) (List.forall_mem_singleton.mpr (by decide))
        (List.cons_ne_nil _ _) rfl hrest
    · have hdigit (c : Char) (hc : c ∈ Nat.toDigits 10 v.toNat) : c ∈ Base.decimal.alphabet :=
        mem_decimal_of_mem_toDigits hc
      have hne := head?_toDigits_ne hv
      obtain ⟨d, ds, hdigits⟩ := List.exists_cons_of_ne_nil (Nat.toDigits_ne_nil (b := 10)
        (n := v.toNat))
      have hvalue := ofDigits_toDigits (by decide) (by decide) v.toNat (b := 10)
      rw [hdigits] at hdigit hne hvalue ⊢
      exact exists_laysOut_of_digits [] (d :: ds) rfl (hdigit d List.mem_cons_self)
        (.decimal hne) hdigit (List.cons_ne_nil d ds) hvalue hrest
  | @hexadecimal x digits hx hdigits =>
    have hdigit (c : Char) (hc : c ∈ digits) : c ∈ Base.hexadecimal.alphabet :=
      mem_alphabet_of_hexadecimal hdigits hc
    -- a digit is worth the same in either case
    have hworth : digits.map worth = (Nat.toDigits 16 v.toNat).map worth := by
      have hsame : ∀ d ∈ Base.hexadecimal.alphabet, worth d = worth d.toLower :=
        List.all_iff_forall_prop.mp (by decide)
      rw [← hdigits, List.map_map]
      exact List.map_congr_left fun c hc => hsame c (hdigit c hc)
    have hvalue : Nat.ofDigits 16 (digits.reverse.map worth) = v.toNat := by
      rw [List.map_reverse, hworth, ← List.map_reverse]
      exact ofDigits_toDigits (by decide) (by decide) v.toNat
    obtain ⟨d, ds, rfl⟩ : ∃ d ds, digits = d :: ds := by
      refine List.exists_cons_of_ne_nil fun hnil => ?_
      rw [hnil] at hdigits
      exact Nat.toDigits_ne_nil hdigits.symm
    exact exists_laysOut_of_digits ['0', x] (d :: ds) rfl hzero
      (.hexadecimal hx (hdigit d List.mem_cons_self)) hdigit (List.cons_ne_nil d ds) hvalue hrest
  | octal =>
    have hdigit (c : Char) (hc : c ∈ Nat.toDigits 8 v.toNat) : c ∈ Base.octal.alphabet :=
      of_mem_toDigits (· ∈ Base.octal.alphabet) (by decide) (by decide) hc
    have hvalue : Nat.ofDigits 8 (('0' :: Nat.toDigits 8 v.toNat).reverse.map worth) = v.toNat := by
      rw [List.reverse_cons, List.map_append, Nat.ofDigits_append,
        ofDigits_toDigits (by decide) (by decide)]
      rfl
    exact exists_laysOut_of_digits [] _ rfl hzero (announces_octal hdigit hrest)
      (List.forall_mem_cons.mpr ⟨by decide, hdigit⟩) (List.cons_ne_nil _ _) hvalue hrest

end Numeral

/-! ## Bytes -/

/-- A text in ASCII, as bytes. -/
def Text.ascii (cs : List Char) : List UInt8 :=
  cs.map fun c => UInt8.ofNat c.toNat

/-- A character in ASCII other than NUL. -/
def Text.Plain (c : Char) : Prop :=
  0 < c.toNat ∧ c.toNat < 128

theorem Numeral.GoesOn.plain {c : Char} (h : GoesOn c) : Text.Plain c := by
  have hdigits : ∀ d ∈ Base.hexadecimal.alphabet, 0 < d.toNat ∧ d.toNat < 128 :=
    List.all_iff_forall_prop.mp (by decide)
  rcases h with h | rfl | rfl
  · exact hdigits c h
  · exact ⟨by decide, by decide⟩
  · exact ⟨by decide, by decide⟩

namespace Text

variable {cs : List Char}

theorem toNat_of_plain {c : Char} (h : Plain c) : (UInt8.ofNat c.toNat).toNat = c.toNat :=
  Utf8.toNat_of_ascii h.2

theorem decodeLossy_ascii_of_plain (h : ∀ c ∈ cs, Plain c) : Utf8.decodeLossy (ascii cs) = cs := by
  rw [ascii, ← Utf8.encode_of_ascii fun c hc => (h c hc).2]
  exact Utf8.decodeLossy_encode cs

theorem ne_zero_of_mem_ascii (h : ∀ c ∈ cs, Plain c) {b : UInt8} (hb : b ∈ ascii cs) : b ≠ 0 := by
  obtain ⟨c, hc, rfl⟩ := List.mem_map.mp hb
  intro hzero
  have hpositive := (h c hc).1
  rw [← toNat_of_plain (h c hc), hzero] at hpositive
  exact absurd hpositive (by decide)

end Text

namespace Field

variable {v : UInt64} {cs : List Char} {rest : List UInt8}

/-- Of a text that fits and is followed by a newline or a NUL, if by anything, the first
bytes show the text and a newline at most. -/
theorem exists_fullText_eq {limit : Nat} (hplain : ∀ c ∈ cs, Text.Plain c)
    (hfits : cs.length ≤ limit) (hrest : ∀ b, rest.head? = some b → b = 0x0A ∨ b = 0) :
    ∃ tail, fullText ((Text.ascii cs ++ rest).take limit) = cs ++ tail ∧
      ∀ c, tail.head? = some c → c = '\n' := by
  have hlength : (Text.ascii cs).length ≤ limit := by rwa [Text.ascii, List.length_map]
  have hnul : ∀ b ∈ Text.ascii cs, decide (b ≠ 0) = true :=
    fun b hb => decide_eq_true (Text.ne_zero_of_mem_ascii hplain hb)
  rw [fullText, List.take_append, List.take_of_length_le hlength,
    List.takeWhile_append_of_pos hnul]
  generalize limit - (Text.ascii cs).length = room
  -- nothing more is shown, or a newline comes first
  have hshown : (rest.take room).takeWhile (· ≠ 0) = [] ∨
      ∃ more, (rest.take room).takeWhile (· ≠ 0) = 0x0A :: more := by
    cases rest with
    | nil => exact .inl (by simp)
    | cons b more =>
      cases room with
      | zero => exact .inl (by simp)
      | succ room =>
        rcases hrest b rfl with rfl | rfl
        · exact .inr ⟨_, rfl⟩
        · exact .inl rfl
  rcases hshown with hnone | ⟨more, hmore⟩
  · rw [hnone, List.append_nil, Text.decodeLossy_ascii_of_plain hplain]
    refine ⟨[], (List.append_nil cs).symm, fun c hc => ?_⟩
    cases hc
  · have hnewline : (0x0A : UInt8) < 0x80 := by decide
    rw [hmore, Text.Utf8.decodeLossy_append_ascii hnewline, Text.decodeLossy_ascii_of_plain hplain]
    exact ⟨_, rfl, fun c hc => (Option.some.inj hc).symm⟩

/-- A rendering is read as the number that it renders. -/
theorem number_of_renders (h : Numeral.Renders v cs)
    (hrest : ∀ b, rest.head? = some b → b = 0x0A ∨ b = 0) :
    number ((Text.ascii cs ++ rest).take (numberSize - 1)) = .ok v := by
  obtain ⟨tail, htext, htail⟩ :=
    exists_fullText_eq (fun c hc => (h.goesOn hc).plain) h.length_le hrest
  obtain ⟨l, hl, hne, hvalue⟩ := h.exists_laysOut htail
  rw [number_eq_ok_iff, htext, hl.auto?_eq_some_iff]
  exact ⟨hne, hvalue⟩

end Field

end PowerZones
