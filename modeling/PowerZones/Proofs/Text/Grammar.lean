import PowerZones.Text.Numeral
import Mathlib.Data.Bool.AllAny
import Mathlib.Data.List.Induction
import Mathlib.Data.List.TakeWhile
import Mathlib.Data.Nat.Digits.Defs

/-!
# The grammar of numerals

The text that a number is read from is blanks, a sign, the mark of a base, digits and
whatever follows. Each part but the last is as long as it can be, and the mark of base 16
is one only if a digit follows it.

* **`Numeral.Layout`** is a text in these parts, **`Layout.LaysOut`** says that it is
  divided as it has to be, in terms of characters and nothing else;
* **`LaysOut.unique`**: every text is so divided in exactly one way;
* **`Layout.LaysOut.auto?_eq_some_iff`**: what is read is the positional value of the
  digits;
* **`Numeral.auto?_follows_grammar`** puts these together, with the places in the UTF-8
  text at which it is cut.
-/

namespace PowerZones.Numeral

variable {base : Base} {c : Char} {mark cs : List Char}

/-! ## Digits -/

/-- The digits of a base. -/
def Base.alphabet : Base → List Char
  | .octal => "01234567".toList
  | .decimal => "0123456789".toList
  | .hexadecimal => "0123456789abcdefABCDEF".toList

/-- What a digit is worth: its place in the order of digits, whatever its case. -/
def worth (c : Char) : Nat :=
  "0123456789abcdef".toList.idxOf c.toLower

/-- What holds of all characters between two holds of each that is between them. -/
theorem of_between (P : Char → Prop) {lo hi : Char} (h : lo ≤ c ∧ c ≤ hi)
    (hall : ∀ k < hi.toNat + 1 - lo.toNat, P (Char.ofNat (lo.toNat + k))) : P c := by
  have hlo : lo.toNat ≤ c.toNat := h.1
  have hhi : c.toNat ≤ hi.toNat := h.2
  have hc := hall (c.toNat - lo.toNat) (by omega)
  rwa [Nat.add_sub_cancel' hlo, Char.ofNat_toNat] at hc

theorem mem_alphabet_of_digitValue (h : digitValue c < 16) : c ∈ Base.hexadecimal.alphabet := by
  unfold digitValue at h
  split at h
  next hrange => exact of_between (· ∈ Base.hexadecimal.alphabet) hrange (by decide)
  split at h
  next hrange => exact of_between (· ∈ Base.hexadecimal.alphabet) hrange (by decide)
  split at h
  next hrange => exact of_between (· ∈ Base.hexadecimal.alphabet) hrange (by decide)
  next => omega

/-- The digits of every base are digits of base 16. -/
theorem Base.alphabet_subset (base : Base) : base.alphabet ⊆ Base.hexadecimal.alphabet := by
  cases base <;> decide

theorem Base.isDigit_iff : base.isDigit c = true ↔ c ∈ base.alphabet := by
  -- only the digits of base 16 can be digits at all, and these are few
  have hall : ∀ d ∈ Base.hexadecimal.alphabet, base.isDigit d = true ↔ d ∈ base.alphabet :=
    List.all_iff_forall_prop.mp (by cases base <;> decide)
  have hsize : base.size ≤ 16 := by cases base <;> decide
  constructor
  · intro h
    have hlt : digitValue c < base.size := of_decide_eq_true h
    exact (hall c (mem_alphabet_of_digitValue (Nat.lt_of_lt_of_le hlt hsize))).mp h
  · exact fun h => (hall c (base.alphabet_subset h)).mpr h

theorem digitValue_eq_worth (h : c ∈ Base.hexadecimal.alphabet) : digitValue c = worth c := by
  have hall : ∀ d ∈ Base.hexadecimal.alphabet, digitValue d = worth d :=
    List.all_iff_forall_prop.mp (by decide)
  exact hall c h

/-- The value of digits is positional: each digit counts as often as the base says for
its place, the last one once. -/
theorem Base.value_eq_ofDigits (h : ∀ c ∈ cs, c ∈ base.alphabet) :
    base.value cs = Nat.ofDigits base.size (cs.reverse.map worth) := by
  induction cs using List.reverseRecOn with
  | nil => rfl
  | append_singleton front c ih =>
    have hc : digitValue c = worth c :=
      digitValue_eq_worth (base.alphabet_subset (h c (by simp)))
    rw [List.reverse_append, List.reverse_singleton, List.singleton_append, List.map_cons,
      Nat.ofDigits_cons, ← ih fun c hc => h c (List.mem_append_left _ hc), Base.value, Base.value,
      List.foldl_append, List.foldl_cons, List.foldl_nil, hc]
    rw [Nat.add_comm, Nat.mul_comm]

/-! ## The mark of a base -/

/-- How what follows the sign announces a base: the mark, the base, and what follows the
mark. A leading `0` is a digit of base 8 at the same time. -/
inductive Announces : List Char → Base → List Char → Prop
  | hexadecimal {x d : Char} {rest : List Char} (hx : x = 'x' ∨ x = 'X')
      (hd : d ∈ Base.hexadecimal.alphabet) : Announces ['0', x] .hexadecimal (d :: rest)
  | octal {rest : List Char} (h : ∀ x d more, rest = x :: d :: more → x = 'x' ∨ x = 'X' →
      d ∉ Base.hexadecimal.alphabet) : Announces [] .octal ('0' :: rest)
  | decimal {rest : List Char} (h : rest.head? ≠ some '0') : Announces [] .decimal rest

/-- The letter in a mark is no digit of base 8. -/
theorem notMem_octal_of_mark {x : Char} (hx : x = 'x' ∨ x = 'X') : x ∉ Base.octal.alphabet := by
  rcases hx with rfl | rfl <;> decide

theorem Announces.announced_eq {rest : List Char} (h : Announces mark base rest) :
    announced (mark ++ rest) = (base, rest) := by
  cases h with
  | hexadecimal hx hd =>
    have hdigit := Base.isDigit_iff.mpr hd
    simp only [List.cons_append, List.nil_append, announced, if_pos (And.intro hx hdigit)]
  | @octal rest h =>
    match rest with
    | [] => rfl
    | [x] => rfl
    | x :: d :: more =>
      have hno : ¬((x = 'x' ∨ x = 'X') ∧ Base.hexadecimal.isDigit d = true) :=
        fun hmark => h x d more rfl hmark.1 (Base.isDigit_iff.mp hmark.2)
      simp only [List.nil_append, announced, if_neg hno]
  | decimal h =>
    rw [List.nil_append]
    unfold announced
    split
    · exact absurd rfl h
    · exact absurd rfl h
    · rfl

/-- Every text announces a base. -/
theorem exists_announces (cs : List Char) :
    ∃ mark, cs = mark ++ (announced cs).2 ∧ Announces mark (announced cs).1 (announced cs).2 := by
  unfold announced
  split
  next x d rest =>
    split
    next hmark => exact ⟨['0', x], rfl, .hexadecimal hmark.1 (Base.isDigit_iff.mp hmark.2)⟩
    next hmark =>
      refine ⟨[], rfl, .octal fun x' d' more heq hx hd => hmark ?_⟩
      cases heq
      exact ⟨hx, Base.isDigit_iff.mpr hd⟩
  next rest hshort =>
    exact ⟨[], rfl, .octal fun x d more heq _ _ => hshort x d more heq⟩
  next cs hlong hshort =>
    refine ⟨[], rfl, .decimal fun hhead => ?_⟩
    obtain ⟨rest, rfl⟩ := List.head?_eq_some_iff.mp hhead
    exact hshort rest rfl

/-! ## Blanks and sign -/

/-- A run that is as long as it can be is what is taken, and the rest is what is left. -/
private theorem takeWhile_append_eq {p : Char → Bool} {run rest : List Char}
    (hrun : ∀ c ∈ run, p c = true) (hrest : ∀ c, rest.head? = some c → p c = false) :
    (run ++ rest).takeWhile p = run ∧ (run ++ rest).dropWhile p = rest := by
  rw [List.takeWhile_append_of_pos hrun, List.dropWhile_append_of_pos hrun]
  cases rest with
  | nil => simp
  | cons c more => simp [hrest c rfl]

/-- Where a run ends, the next character does not belong to it. -/
private theorem head?_dropWhile {p : Char → Bool} (h : (cs.dropWhile p).head? = some c) :
    p c = false := by
  have hnot := List.head?_dropWhile_not p cs
  rw [h] at hnot
  exact hnot

theorem dropPlus_of_head?_ne (h : cs.head? ≠ some '+') : dropPlus cs = cs := by
  unfold dropPlus
  split
  · exact absurd rfl h
  · rfl

/-- As many blanks as there are, and a plus sign if there is one. -/
structure Leads (blanks sign body : List Char) : Prop where
  blank : ∀ c ∈ blanks, Text.isBlank c = true
  longest : ∀ c, (sign ++ body).head? = some c → Text.isBlank c = false
  sign : sign = ['+'] ∨ sign = [] ∧ body.head? ≠ some '+'

namespace Leads

variable {blanks blanks' sign sign' body body' : List Char}

theorem blanks_eq (h : Leads blanks sign body) :
    (blanks ++ (sign ++ body)).takeWhile Text.isBlank = blanks ∧
      (blanks ++ (sign ++ body)).dropWhile Text.isBlank = sign ++ body :=
  takeWhile_append_eq h.blank h.longest

theorem dropPlus_eq (h : Leads blanks sign body) : dropPlus (sign ++ body) = body := by
  rcases h.sign with hsign | ⟨hsign, hhead⟩
  · rw [hsign]
    rfl
  · rw [hsign, List.nil_append, dropPlus_of_head?_ne hhead]

theorem unique (h : Leads blanks sign body) (h' : Leads blanks' sign' body')
    (htext : blanks ++ (sign ++ body) = blanks' ++ (sign' ++ body')) :
    blanks = blanks' ∧ sign = sign' ∧ body = body' := by
  have hblanks : blanks = blanks' := by
    rw [← h.blanks_eq.1, htext, h'.blanks_eq.1]
  have hsigned : sign ++ body = sign' ++ body' := by
    rw [← h.blanks_eq.2, htext, h'.blanks_eq.2]
  have hbody : body = body' := by
    rw [← h.dropPlus_eq, hsigned, h'.dropPlus_eq]
  exact ⟨hblanks, List.append_cancel_right (hbody ▸ hsigned), hbody⟩

/-- What is blank or a sign depends on no more than one character of what follows. -/
theorem congr_head (h : Leads blanks sign body) (hhead : body'.head? = body.head?) :
    Leads blanks sign body' where
  blank := h.blank
  longest c hc := by
    rw [List.head?_append, hhead, ← List.head?_append] at hc
    exact h.longest c hc
  sign := by
    rw [hhead]
    exact h.sign

end Leads

theorem exists_leads (text : List Char) :
    ∃ blanks sign body, blanks ++ (sign ++ body) = text ∧ Leads blanks sign body := by
  obtain ⟨signed, hsigned⟩ : ∃ signed, signed = text.dropWhile Text.isBlank := ⟨_, rfl⟩
  have htext : text.takeWhile Text.isBlank ++ signed = text :=
    hsigned ▸ List.takeWhile_append_dropWhile
  have hblank : ∀ c ∈ text.takeWhile Text.isBlank, Text.isBlank c = true :=
    fun c hc => List.mem_takeWhile_imp hc
  have hlongest : ∀ c, signed.head? = some c → Text.isBlank c = false :=
    fun c hc => head?_dropWhile (hsigned ▸ hc)
  by_cases hplus : signed.head? = some '+'
  · obtain ⟨body, rfl⟩ := List.head?_eq_some_iff.mp hplus
    exact ⟨_, ['+'], body, htext, hblank, hlongest, .inl rfl⟩
  · exact ⟨_, [], signed, htext, hblank, hlongest, .inr ⟨rfl, hplus⟩⟩

/-! ## Layouts -/

/-- A text that may begin with a numeral, in its parts. -/
structure Layout where
  blanks : List Char
  sign : List Char
  mark : List Char
  base : Base
  digits : List Char
  rest : List Char
  deriving DecidableEq, Repr

namespace Layout

variable {l l' : Layout} {text : List Char} {v : UInt64}

/-- What follows the sign. -/
def body (l : Layout) : List Char :=
  l.mark ++ (l.digits ++ l.rest)

/-- The text up to the end of the digits. -/
def reach (l : Layout) : List Char :=
  l.blanks ++ l.sign ++ l.mark ++ l.digits

/-- The positional value of the digits. -/
def value (l : Layout) : Nat :=
  Nat.ofDigits l.base.size (l.digits.reverse.map worth)

/-- Where the parts meet, in bytes of UTF-8. -/
def cuts (l : Layout) : List String.Pos.Raw :=
  [l.blanks, l.blanks ++ l.sign, l.blanks ++ l.sign ++ l.mark, l.reach].map
    fun front => (String.ofList front).rawEndPos

/-- A text in its parts: blanks and sign, the mark that announces the base, and as many
digits of that base as there are. -/
structure LaysOut (l : Layout) (text : List Char) : Prop where
  text_eq : l.blanks ++ (l.sign ++ l.body) = text
  leads : Leads l.blanks l.sign l.body
  announces : Announces l.mark l.base (l.digits ++ l.rest)
  digit : ∀ c ∈ l.digits, c ∈ l.base.alphabet
  longest : ∀ c, l.rest.head? = some c → c ∉ l.base.alphabet

theorem reach_append (l : Layout) : l.reach ++ l.rest = l.blanks ++ (l.sign ++ l.body) := by
  simp only [reach, body, List.append_assoc]

namespace LaysOut

theorem digits_eq (h : l.LaysOut text) :
    (l.digits ++ l.rest).takeWhile l.base.isDigit = l.digits ∧
      (l.digits ++ l.rest).dropWhile l.base.isDigit = l.rest := by
  refine takeWhile_append_eq (fun c hc => Base.isDigit_iff.mpr (h.digit c hc)) fun c hc => ?_
  exact Bool.eq_false_iff.mpr fun hdigit => h.longest c hc (Base.isDigit_iff.mp hdigit)

/-- A text is divided in one way only. -/
theorem unique (h : l.LaysOut text) (h' : l'.LaysOut text) : l = l' := by
  obtain ⟨hblanks, hsign, hbody⟩ := h.leads.unique h'.leads (h.text_eq.trans h'.text_eq.symm)
  have hannounced : (l.base, l.digits ++ l.rest) = (l'.base, l'.digits ++ l'.rest) := by
    rw [← h.announces.announced_eq, ← h'.announces.announced_eq]
    exact congrArg announced hbody
  obtain ⟨hbase, hafter⟩ := Prod.mk.inj hannounced
  have hmark : l.mark = l'.mark := by
    rw [body, body, hafter] at hbody
    exact List.append_cancel_right hbody
  have hdigits : l.digits = l'.digits := by
    rw [← h.digits_eq.1, ← h'.digits_eq.1, hbase, hafter]
  have hrest : l.rest = l'.rest := List.append_cancel_left (hdigits ▸ hafter)
  cases l
  cases l'
  simp only [mk.injEq]
  exact ⟨hblanks, hsign, hmark, hbase, hdigits, hrest⟩

theorem auto?_eq (h : l.LaysOut text) : auto? text =
    if l.digits = [] then none
    else if l.value < UInt64.size then some (UInt64.ofNat l.value) else none := by
  have hbody : announced l.body = (l.base, l.digits ++ l.rest) := h.announces.announced_eq
  have hvalue : l.base.value l.digits = l.value := Base.value_eq_ofDigits h.digit
  rw [← h.text_eq]
  simp only [auto?, h.leads.blanks_eq.2, h.leads.dropPlus_eq, hbody, h.digits_eq.1, hvalue]

/-- What is read is the value of the digits. -/
theorem auto?_eq_some_iff (h : l.LaysOut text) :
    auto? text = some v ↔ l.digits ≠ [] ∧ l.value = v.toNat := by
  rw [h.auto?_eq]
  split
  next hempty => simp [hempty]
  next hne =>
    split
    next hlt =>
      rw [Option.some.injEq, and_iff_right hne, ← UInt64.toNat_inj, UInt64.toNat_ofNat_of_lt' hlt]
    next hge =>
      have hv : v.toNat < UInt64.size := v.toNat_lt
      simp only [reduceCtorEq, false_iff, not_and]
      exact fun _ heq => hge (heq ▸ hv)

/-- Nothing is read where there are no digits, or too great a value. -/
theorem auto?_eq_none_iff (h : l.LaysOut text) :
    auto? text = none ↔ l.digits = [] ∨ UInt64.size ≤ l.value := by
  rw [h.auto?_eq]
  split
  next hempty => simp [hempty]
  next hne =>
    split
    next hlt => simp [hne, hlt]
    next hge => simp [hne, Nat.not_lt.mp hge]

/-- There are digits just where a decimal digit follows the sign: every mark begins with
one. -/
theorem digits_eq_nil_iff (h : l.LaysOut text) :
    l.digits = [] ↔ ∀ c, l.body.head? = some c → c ∉ Base.decimal.alphabet := by
  obtain ⟨blanks, sign, mark, base, digits, rest⟩ := l
  have hannounces : Announces mark base (digits ++ rest) := h.announces
  have hlongest : ∀ c, rest.head? = some c → c ∉ base.alphabet := h.longest
  have hdigit : ∀ c ∈ digits, c ∈ base.alphabet := h.digit
  have hzero : '0' ∈ Base.decimal.alphabet := by decide
  show digits = [] ↔ ∀ c, (mark ++ (digits ++ rest)).head? = some c → c ∉ Base.decimal.alphabet
  generalize hafter : digits ++ rest = after at hannounces
  cases hannounces with
  | @hexadecimal x d more hx hd =>
    refine iff_of_false (fun hnil => ?_) fun hno => hno '0' rfl hzero
    subst hnil
    exact hlongest d (congrArg List.head? hafter) hd
  | @octal more hno =>
    refine iff_of_false (fun hnil => ?_) fun hno => hno '0' rfl hzero
    subst hnil
    exact hlongest '0' (congrArg List.head? hafter) (by decide)
  | decimal hhead =>
    subst hafter
    cases digits with
    | nil => exact iff_of_true rfl hlongest
    | cons c more =>
      exact iff_of_false (List.cons_ne_nil c more) fun hno => hno c rfl (hdigit c (by simp))

end LaysOut

/-! ## Every text has one -/

theorem exists_laysOut (text : List Char) : ∃ l : Layout, l.LaysOut text := by
  obtain ⟨blanks, sign, body, rfl, hleads⟩ := exists_leads text
  obtain ⟨mark, hmark, hannounces⟩ := exists_announces body
  generalize (announced body).1 = base at hannounces
  generalize (announced body).2 = after at hmark hannounces
  have hafter : after.takeWhile base.isDigit ++ after.dropWhile base.isDigit = after :=
    List.takeWhile_append_dropWhile
  subst hmark
  refine ⟨⟨blanks, sign, mark, base, after.takeWhile base.isDigit,
    after.dropWhile base.isDigit⟩, ?_⟩
  constructor
  case text_eq => rw [Layout.body, hafter]
  case leads => rwa [Layout.body, hafter]
  case announces => rwa [hafter]
  case digit => exact fun c hc => Base.isDigit_iff.mp (List.mem_takeWhile_imp hc)
  case longest =>
    intro c hc hdigit
    have hno := head?_dropWhile hc
    rw [Base.isDigit_iff.mpr hdigit] at hno
    cases hno

/-- Where a text is divided, it is divided between characters. -/
theorem LaysOut.isValid_of_mem_cuts {s : String} (h : l.LaysOut s.toList) {cut : String.Pos.Raw}
    (hcut : cut ∈ l.cuts) : cut.IsValid s := by
  have hfront (front back : List Char) (heq : front ++ back = s.toList) :
      (String.ofList front).rawEndPos.IsValid s := by
    refine String.Pos.Raw.isValid_iff_exists_append.mpr
      ⟨String.ofList front, String.ofList back, ?_, rfl⟩
    rw [← String.ofList_append, heq, String.ofList_toList]
  have htext := h.text_eq
  simp only [cuts, List.map_cons, List.map_nil, List.mem_cons, List.not_mem_nil, or_false] at hcut
  rcases hcut with rfl | rfl | rfl | rfl
  · exact hfront _ _ htext
  · exact hfront _ l.body (by rw [← htext, List.append_assoc])
  · exact hfront _ (l.digits ++ l.rest) (by simp only [← htext, body, List.append_assoc])
  · exact hfront _ l.rest (l.reach_append.trans htext)

end Layout

/-- **A number is read by a grammar.** Every text has exactly one layout: as many blanks as
there are, a plus sign if there is one, `0x` or `0X` if a hexadecimal digit follows, and as
many digits as there are of the base so announced. A number is read just if there are
digits and their value fits 64 bits, and it is their value; there are digits just if a
decimal digit follows the blanks and the sign. The parts meet between characters. -/
theorem auto?_follows_grammar (s : String) : ∃ l : Layout,
    (∀ l' : Layout, l'.LaysOut s.toList ↔ l' = l) ∧
    (∀ v, auto? s.toList = some v ↔ l.digits ≠ [] ∧ l.value = v.toNat) ∧
    (auto? s.toList = none ↔ l.digits = [] ∨ UInt64.size ≤ l.value) ∧
    (l.digits = [] ↔ ∀ c, l.body.head? = some c → c ∉ Base.decimal.alphabet) ∧
    ∀ cut ∈ l.cuts, cut.IsValid s := by
  obtain ⟨l, hl⟩ := Layout.exists_laysOut s.toList
  refine ⟨l, fun l' => ⟨fun h => h.unique hl, fun h => h ▸ hl⟩, fun v => hl.auto?_eq_some_iff,
    hl.auto?_eq_none_iff, hl.digits_eq_nil_iff, fun cut hcut => hl.isValid_of_mem_cuts hcut⟩

end PowerZones.Numeral
