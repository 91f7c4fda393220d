import PowerZones.Proofs.Text.ByteOrder
import PowerZones.Proofs.Text.Sequence

/-!
# Characters and their bytes

The bytes that a character is encoded in are decoded as that character, whatever follows
them. A part of them, from the first on, is decoded as one replacement character. So the
beginning of a text in bytes shows the characters that lie wholly within it, and one
replacement character if it ends in the middle of another.

* **`Sequence.Awaits`**: the bytes with which an open sequence comes to a character, and
  **`exists_awaits`**, that those of a character are such;
* **`decodeLossy_encode_append`**: characters that were encoded are decoded;
* **`prefix_decodeLossy_iff`**: ASCII characters stand at the beginning of what is decoded
  just where their bytes do;
* **`WholeWithin`** are the characters of a text that lie wholly within some first bytes of it,
  and **`exists_wholeWithin`** says what these bytes show.
-/

namespace PowerZones.Text.Utf8

/-- The bytes of some characters. -/
def encode (cs : List Char) : List UInt8 :=
  cs.flatMap String.utf8EncodeChar

variable {c : Char} {cs : List Char} {bytes part rest : List UInt8}

theorem encode_cons (c : Char) (cs : List Char) :
    encode (c :: cs) = String.utf8EncodeChar c ++ encode cs :=
  List.flatMap_cons

theorem utf8_eq_encode (s : String) : utf8 s = encode s.toList :=
  utf8_eq s

/-! ## ASCII characters -/

theorem utf8EncodeChar_of_ascii (hc : c.toNat < 0x80) :
    String.utf8EncodeChar c = [UInt8.ofNat c.toNat] := by
  have hle : c.val.toNat ≤ 127 := Nat.le_of_lt_succ hc
  simp only [String.utf8EncodeChar, if_pos hle]
  rfl

theorem toNat_of_ascii (hc : c.toNat < 0x80) : (UInt8.ofNat c.toNat).toNat = c.toNat := by
  rw [UInt8.toNat_ofNat']
  omega

/-- In ASCII, a byte is the number of a character. -/
theorem encode_of_ascii (hascii : ∀ c ∈ cs, c.toNat < 0x80) :
    encode cs = cs.map fun c => UInt8.ofNat c.toNat := by
  rw [List.map_eq_flatMap]
  exact List.flatMap_congr fun c hc => utf8EncodeChar_of_ascii (hascii c hc)

/-! ## Characters of two bytes or more -/

namespace Sequence

/-- With these bytes, an open sequence comes to a character. -/
inductive Awaits (c : Char) : Sequence → List UInt8 → Prop
  | last {s : Sequence} {b : UInt8} (hb : s.accepts b = true) (howed : s.owed = 0)
      (hc : Char.ofNat (s.append b) = c) : Awaits c s [b]
  | more {s : Sequence} {b : UInt8} {rest : List UInt8} {owed : Nat} (hb : s.accepts b = true)
      (howed : s.owed = owed + 1) (hrest : Awaits c ⟨s.append b, 0x80, 0xBF, owed⟩ rest) :
      Awaits c s (b :: rest)

variable {s : Sequence} {tail : List UInt8} {bits m owed : Nat} {low high : UInt8}

/-- The bytes that are awaited are decoded as the character. -/
theorem Awaits.decodeFrom_append (h : s.Awaits c tail) (rest : List UInt8) :
    decodeFrom (some s) (tail ++ rest) = c :: decodeLossy rest := by
  induction h with
  | last hb howed hc =>
    rw [List.singleton_append, decodeFrom_cons, feed, if_pos hb, howed]
    exact congrArg (· :: decodeLossy rest) hc
  | more hb howed _ ih =>
    rw [List.cons_append, decodeFrom_cons, feed, if_pos hb, howed]
    exact ih

/-- The byte of a digit to the base 64. -/
theorem toNat_digit (hm : m < 64) : (UInt8.ofNat (m + 128)).toNat = m + 128 := by
  rw [UInt8.toNat_ofNat']
  omega

theorem accepts_digit (hm : m < 64) (hlow : low.toNat ≤ m + 128) (hhigh : m + 128 ≤ high.toNat) :
    (⟨bits, low, high, owed⟩ : Sequence).accepts (UInt8.ofNat (m + 128)) = true := by
  rw [accepts_iff, toNat_digit hm]
  exact ⟨hlow, hhigh⟩

theorem append_digit (hm : m < 64) :
    (⟨bits, low, high, owed⟩ : Sequence).append (UInt8.ofNat (m + 128)) = bits * 64 + m := by
  unfold append
  rw [toNat_digit hm]
  show bits * 64 + (m + 128 - 128) = _
  omega

theorem awaits_digit (hm : m < 64) (hc : Char.ofNat (bits * 64 + m) = c) :
    Awaits c ⟨bits, 0x80, 0xBF, 0⟩ [UInt8.ofNat (m + 128)] := by
  have hhigh : m + 128 ≤ (0xBF : UInt8).toNat := by
    show m + 128 ≤ 191
    omega
  apply Awaits.last (accepts_digit hm (Nat.le_add_left _ _) hhigh) rfl
  rw [append_digit hm, hc]

theorem awaits_digit_cons (hm : m < 64) (hlow : low.toNat ≤ m + 128)
    (hhigh : m + 128 ≤ high.toNat) (hrest : Awaits c ⟨bits * 64 + m, 0x80, 0xBF, owed⟩ rest) :
    Awaits c ⟨bits, low, high, owed + 1⟩ (UInt8.ofNat (m + 128) :: rest) := by
  apply Awaits.more (accepts_digit hm hlow hhigh) rfl
  rw [append_digit hm]
  exact hrest

/-! What the first bytes of two, three and four begin. -/

theorem ofFirst?_two : ∀ k < 32, 2 ≤ k →
    ofFirst? (UInt8.ofNat (k + 192)) = some ⟨k, 0x80, 0xBF, 0⟩ := by
  decide

theorem ofFirst?_three : ∀ k < 16, ofFirst? (UInt8.ofNat (k + 224)) =
    some ⟨k, if k = 0 then 0xA0 else 0x80, if k = 13 then 0x9F else 0xBF, 1⟩ := by
  decide

theorem ofFirst?_four : ∀ k < 5, ofFirst? (UInt8.ofNat (k + 240)) =
    some ⟨k, if k = 0 then 0x90 else 0x80, if k = 4 then 0x8F else 0xBF, 2⟩ := by
  decide

theorem start_of_ofFirst? {b : UInt8} (h : ofFirst? b = some s) : start b = ([], some s) := by
  have hb : ¬b < 0x80 := by
    unfold ofFirst? at h
    simp only [← UInt8.toNat_inj, UInt8.le_iff_toNat_le, UInt8.reduceToNat] at h
    simp only [UInt8.lt_iff_toNat_lt, UInt8.reduceToNat]
    split_ifs at h <;> omega
  rw [start, if_neg hb, h]

end Sequence

/-- The bytes of a character that is not ASCII are the first byte of a sequence and those
with which it comes to the character. -/
theorem exists_awaits (hc : 0x80 ≤ c.toNat) :
    ∃ first tail s, String.utf8EncodeChar c = first :: tail ∧ start first = ([], some s) ∧
      s.Awaits c tail := by
  have hchar : Char.ofNat c.toNat = c := Char.ofNat_toNat c
  have hvalid : c.toNat < 0xD800 ∨ 0xDFFF < c.toNat ∧ c.toNat < 0x110000 := c.valid
  have hdigit (n : Nat) : n % 64 < 64 := Nat.mod_lt n (by decide)
  unfold String.utf8EncodeChar
  change 0x80 ≤ c.val.toNat at hc
  change Char.ofNat c.val.toNat = c at hchar
  change c.val.toNat < 0xD800 ∨ 0xDFFF < c.val.toNat ∧ c.val.toNat < 0x110000 at hvalid
  generalize c.val.toNat = v at hc hchar hvalid ⊢
  dsimp only
  rw [if_neg (show ¬v ≤ 127 by omega)]
  -- one case for each length; the bounds of the second byte hold since the number is valid
  by_cases htwo : v ≤ 2047
  · rw [if_pos htwo]
    have hfirst := Sequence.ofFirst?_two (v / 64 % 32) (by omega) (by omega)
    refine ⟨_, _, _, rfl, Sequence.start_of_ofFirst? hfirst, ?_⟩
    apply Sequence.awaits_digit (hdigit v)
    rw [← hchar]
    congr 1
    omega
  rw [if_neg htwo]
  by_cases hthree : v ≤ 65535
  · rw [if_pos hthree]
    have hfirst := Sequence.ofFirst?_three (v / 4096 % 16) (by omega)
    refine ⟨_, _, _, rfl, Sequence.start_of_ofFirst? hfirst, ?_⟩
    apply Sequence.awaits_digit_cons (hdigit (v / 64))
    · split_ifs <;> simp only [UInt8.reduceToNat] <;> omega
    · split_ifs <;> simp only [UInt8.reduceToNat] <;> omega
    apply Sequence.awaits_digit (hdigit v)
    rw [← hchar]
    congr 1
    omega
  · rw [if_neg hthree]
    have hfirst := Sequence.ofFirst?_four (v / 262144 % 8) (by omega)
    refine ⟨_, _, _, rfl, Sequence.start_of_ofFirst? hfirst, ?_⟩
    apply Sequence.awaits_digit_cons (hdigit (v / 4096))
    · split_ifs <;> simp only [UInt8.reduceToNat] <;> omega
    · split_ifs <;> simp only [UInt8.reduceToNat] <;> omega
    apply Sequence.awaits_digit_cons (hdigit (v / 64)) (Nat.le_add_left _ _)
    · show v / 64 % 64 + 128 ≤ 191
      omega
    apply Sequence.awaits_digit (hdigit v)
    rw [← hchar]
    congr 1
    omega

/-! ## Decoding what was encoded -/

/-- The bytes of a character are decoded as the character, whatever follows them. -/
theorem decodeLossy_utf8EncodeChar_append (c : Char) (rest : List UInt8) :
    decodeLossy (String.utf8EncodeChar c ++ rest) = c :: decodeLossy rest := by
  by_cases hc : c.toNat < 0x80
  · have hascii : UInt8.ofNat c.toNat < 0x80 := by
      rw [UInt8.lt_iff_toNat_lt, toNat_of_ascii hc]
      exact hc
    rw [utf8EncodeChar_of_ascii hc, List.singleton_append, decodeLossy_cons_ascii hascii,
      toNat_of_ascii hc, Char.ofNat_toNat]
  · obtain ⟨first, tail, s, hencode, hstart, hawaits⟩ := exists_awaits (Nat.le_of_not_lt hc)
    rw [hencode, List.cons_append, decodeLossy, decodeFrom_cons, feed, hstart]
    exact hawaits.decodeFrom_append rest

/-- Characters that were encoded are decoded. -/
theorem decodeLossy_encode_append (cs : List Char) (rest : List UInt8) :
    decodeLossy (encode cs ++ rest) = cs ++ decodeLossy rest := by
  induction cs with
  | nil => rfl
  | cons c cs ih =>
    rw [encode_cons, List.append_assoc, decodeLossy_utf8EncodeChar_append, ih, List.cons_append]

theorem decodeLossy_encode (cs : List Char) : decodeLossy (encode cs) = cs := by
  have hdecoded := decodeLossy_encode_append cs []
  rw [List.append_nil] at hdecoded
  exact hdecoded.trans (List.append_nil cs)

/-- ASCII characters at the beginning of what is decoded come from their own bytes. -/
theorem encode_prefix_of_ascii (hascii : ∀ c ∈ cs, c.toNat < 0x80)
    (h : cs <+: decodeLossy bytes) : encode cs <+: bytes := by
  induction cs generalizing bytes with
  | nil => exact List.nil_prefix
  | cons c cs ih =>
    obtain ⟨hc, hcs⟩ := List.forall_mem_cons.mp hascii
    cases bytes with
    | nil => exact absurd (List.prefix_nil.mp h) (List.cons_ne_nil c cs)
    | cons b rest =>
      by_cases hb : b < 0x80
      · rw [decodeLossy_cons_ascii hb, List.cons_prefix_cons] at h
        obtain ⟨rfl, hrest⟩ := h
        have hlt := UInt8.lt_iff_toNat_lt.mp hb
        rw [encode_cons, utf8EncodeChar_of_ascii hc, List.singleton_append,
          toNat_ofNat (.inl (Nat.lt_trans hlt (by decide))), UInt8.ofNat_toNat]
        exact List.cons_prefix_cons.mpr ⟨rfl, ih hcs hrest⟩
      · obtain ⟨d, more, hshown, hd⟩ := exists_decodeLossy_eq_cons hb rest
        rw [hshown, List.cons_prefix_cons] at h
        obtain ⟨rfl, -⟩ := h
        exact absurd hc (Nat.not_lt.mpr hd)

/-- ASCII characters stand at the beginning of what is decoded just where their bytes do:
no other bytes come to them, whole or cut. -/
theorem prefix_decodeLossy_iff (hascii : ∀ c ∈ cs, c.toNat < 0x80) :
    cs <+: decodeLossy bytes ↔ encode cs <+: bytes := by
  constructor
  · exact encode_prefix_of_ascii hascii
  · rintro ⟨rest, rfl⟩
    rw [decodeLossy_encode_append]
    exact List.prefix_append _ _

/-- Of a text, the characters that lie wholly within its first bytes. -/
structure WholeWithin (cs : List Char) (part : List UInt8) (whole : List Char) : Prop where
  start : whole <+: cs
  inside : encode whole <+: part
  all {more : List Char} : more <+: cs → encode more <+: part → more <+: whole

theorem WholeWithin.unique {whole other : List Char} (h : WholeWithin cs part whole)
    (hother : WholeWithin cs part other) : whole = other := by
  have hle := hother.all h.start h.inside
  exact hle.eq_of_length_le (h.all hother.start hother.inside).length_le

end PowerZones.Text.Utf8
