import PowerZones.Text.Utf8
import Mathlib.Data.List.Infix
import Mathlib.Tactic.SplitIfs

/-!
# What decoding depends on

Bytes are decoded one after the other, so what stands further back has no influence on
the characters before it, and an ASCII byte is a character of its own wherever it stands.

* **`Utf8.decodeLossy_append_ascii`** divides a text at an ASCII byte;
* **`Utf8.prefix_of_prefix_take`**: of the characters that the first bytes show, only a
  replacement character at the end need not be one of the whole text.
-/

namespace PowerZones.Text.Utf8

variable {state : Option Sequence} {b : UInt8} {bytes rest : List UInt8} {front : List Char}

theorem decodeFrom_cons (state : Option Sequence) (b : UInt8) (rest : List UInt8) :
    decodeFrom state (b :: rest) = (feed state b).1 ++ decodeFrom (feed state b).2 rest := by
  rw [decodeFrom]

/-! ## ASCII bytes -/

/-- An open sequence waits for a byte that is not ASCII. -/
def Waiting (state : Option Sequence) : Prop :=
  ∀ s, state = some s → 0x80 ≤ s.low

theorem waiting_none : Waiting none := nofun

theorem waiting_ofFirst? (b : UInt8) : Waiting (Sequence.ofFirst? b) := by
  have hlow : ∀ s ∈ Sequence.ofFirst? b, s.low = 0x80 ∨ s.low = 0xA0 ∨ s.low = 0x90 := by
    unfold Sequence.ofFirst?
    split_ifs <;> simp
  intro s hs
  rcases hlow s hs with h | h | h <;> rw [h] <;> decide

theorem waiting_start (b : UInt8) : Waiting (start b).2 := by
  unfold start
  split
  · exact waiting_none
  · have hfirst := waiting_ofFirst? b
    split
    next s hs => exact hs ▸ hfirst
    next => exact waiting_none

theorem waiting_feed (state : Option Sequence) (b : UInt8) : Waiting (feed state b).2 := by
  cases state with
  | none => exact waiting_start b
  | some s =>
    rw [feed]
    split
    · split
      · exact waiting_none
      · intro next hnext
        rw [← Option.some.inj hnext]
        exact UInt8.le_refl 0x80
    · exact waiting_start b

theorem feed_ascii (hstate : Waiting state) (hb : b < 0x80) :
    feed state b = (decodeFrom state [] ++ [Char.ofNat b.toNat], none) := by
  cases state with
  | none => rw [feed, start, if_pos hb]; rfl
  | some s =>
    have hno : s.accepts b = false := by
      have hlow := hstate s rfl
      have hlt : ¬s.low ≤ b := UInt8.not_le.mpr (UInt8.lt_of_lt_of_le hb hlow)
      simp [Sequence.accepts, hlt]
    rw [feed, hno, start, if_pos hb]
    rfl

theorem decodeFrom_append_ascii (hstate : Waiting state) (hb : b < 0x80) :
    decodeFrom state (bytes ++ b :: rest) =
      decodeFrom state bytes ++ Char.ofNat b.toNat :: decodeLossy rest := by
  induction bytes generalizing state with
  | nil => simp [decodeFrom, feed_ascii hstate hb, decodeLossy]
  | cons x more ih =>
    rw [List.cons_append, decodeFrom_cons, decodeFrom_cons, ih (waiting_feed state x),
      List.append_assoc]

/-- An ASCII byte is a character, and divides what is decoded before it from what is
decoded after it. -/
theorem decodeLossy_append_ascii (hb : b < 0x80) : decodeLossy (bytes ++ b :: rest) =
    decodeLossy bytes ++ Char.ofNat b.toNat :: decodeLossy rest :=
  decodeFrom_append_ascii waiting_none hb

theorem decodeLossy_cons_ascii (hb : b < 0x80) (rest : List UInt8) :
    decodeLossy (b :: rest) = Char.ofNat b.toNat :: decodeLossy rest := by
  rw [decodeLossy, decodeFrom_cons, feed, start, if_pos hb]
  rfl

theorem exists_common (state : Option Sequence) (bytes rest : List UInt8) :
    ∃ common last more, decodeFrom state bytes = common ++ last ∧
      decodeFrom state (bytes ++ rest) = common ++ more ∧ (last = [] ∨ last = [replacement]) := by
  induction bytes generalizing state with
  | nil =>
    refine ⟨[], decodeFrom state [], decodeFrom state rest, rfl, rfl, ?_⟩
    cases state with
    | none => exact .inl rfl
    | some s => exact .inr rfl
  | cons b bytes ih =>
    obtain ⟨common, last, more, hfirst, hall, hlast⟩ := ih (feed state b).2
    refine ⟨(feed state b).1 ++ common, last, more, ?_, ?_, hlast⟩
    · rw [decodeFrom_cons, hfirst, List.append_assoc]
    · rw [List.cons_append, decodeFrom_cons, hall, List.append_assoc]

/-- What the first bytes of a text show is how the text begins, unless it ends in a
replacement character for a sequence that was cut. -/
theorem prefix_of_prefix_take (limit : Nat) (hfront : replacement ∉ front)
    (h : front <+: decodeLossy (bytes.take limit)) : front <+: decodeLossy bytes := by
  obtain ⟨common, last, more, hfirst, hall, hlast⟩ :=
    exists_common none (bytes.take limit) (bytes.drop limit)
  rw [List.take_append_drop] at hall
  rw [decodeLossy, hfirst] at h
  have hcommon : front <+: common := by
    rcases hlast with rfl | rfl
    · rwa [List.append_nil] at h
    · rcases List.prefix_concat_iff.mp h with heq | hprefix
      · exact absurd (heq ▸ List.mem_append_right common (List.mem_singleton_self _)) hfront
      · exact hprefix
  rw [decodeLossy, hall]
  exact hcommon.trans (List.prefix_append common more)

end PowerZones.Text.Utf8
