import PowerZones.Proofs.Text.Grammar
import PowerZones.Proofs.Text.Line

/-!
# How far a numeral reaches

What follows the digits of a numeral has no influence on what is read, as long as it does
not go on with them. So a numeral is read rightly from a text that was cut behind its
digits; from one that was cut before their end, it is read as the digits that are left.

* **`Layout.LaysOut.of_reach`**: the layout of a text is that of any other which goes on
  from the digits no further;
* **`Layout.LaysOut.of_prefix`** compares the layouts of a text and of its beginning;
* **`Field.auto?_lineText`**: the newline at the end of a line makes no difference;
* **`Field.auto?_take_iff`** says when the beginning of a text shows the whole number.
-/

namespace PowerZones

namespace Numeral

variable {c : Char} {text cs rest : List Char} {v : UInt64}

/-- Whether a character may go on with a numeral: a digit, or the letter in a mark. -/
def GoesOn (c : Char) : Prop :=
  c ∈ Base.hexadecimal.alphabet ∨ c = 'x' ∨ c = 'X'

/-- A character that may stand in a numeral is no replacement character. -/
theorem GoesOn.ne_replacement (h : GoesOn c) : c ≠ Text.Utf8.replacement := by
  rintro rfl
  revert h
  unfold GoesOn
  decide

theorem not_goesOn_newline : ¬GoesOn '\n' := by
  unfold GoesOn
  decide

theorem Announces.goesOn_of_mem_mark {mark rest : List Char} {base : Base}
    (h : Announces mark base rest) (hc : c ∈ mark) : GoesOn c := by
  cases h with
  | hexadecimal hx hd =>
    rcases List.mem_pair.mp hc with rfl | rfl
    · exact .inl (by decide)
    · exact .inr hx
  | octal hno => cases hc
  | decimal hhead => cases hc

/-- What a text announces is announced by a beginning of it that shows digits, unless the
beginning shows no more than the `0` of a mark. -/
theorem Announces.of_prefix {mark mark' after ds rest rest' : List Char} {base base' : Base}
    {d : Char} (h : Announces mark base after) (h' : Announces mark' base' (d :: (ds ++ rest')))
    (hdigit : ∀ c ∈ ds, c ∈ base'.alphabet) (heq : mark ++ after = mark' ++ d :: (ds ++ rest)) :
    (mark = mark' ∧ base = base' ∧ after = d :: (ds ++ rest)) ∨
      mark' = [] ∧ base' = .octal ∧ d :: ds = ['0'] := by
  have hsame (hnew : Announces mark' base' (d :: (ds ++ rest))) :
      mark = mark' ∧ base = base' ∧ after = d :: (ds ++ rest) := by
    have hannounced := h.announced_eq
    rw [heq, hnew.announced_eq, Prod.mk.injEq] at hannounced
    obtain ⟨hbase, hafter⟩ := hannounced
    exact ⟨List.append_cancel_right (hafter ▸ heq), hbase.symm, hafter.symm⟩
  cases h' with
  | hexadecimal hx hd => exact .inl (hsame (.hexadecimal hx hd))
  | decimal hhead => exact .inl (hsame (.decimal hhead))
  | octal hno =>
    cases h with
    | @hexadecimal x y more hx hy =>
      cases ds with
      | nil => exact .inr ⟨rfl, rfl, rfl⟩
      | cons z zs =>
        obtain rfl : x = z := (List.cons.inj (List.cons.inj heq).2).1
        exact absurd (hdigit x List.mem_cons_self) (notMem_octal_of_mark hx)
    | octal hno' => exact .inl ⟨rfl, rfl, heq⟩
    | decimal hhead => exact absurd (congrArg List.head? heq) hhead

namespace Layout

variable {l l' : Layout}

/-- Where there are digits, what follows them is not what follows the sign first. -/
theorem head?_body (hne : l.digits ≠ []) (rest : List Char) :
    (l.mark ++ (l.digits ++ rest)).head? = l.body.head? := by
  obtain ⟨d, more, hdigits⟩ := List.exists_cons_of_ne_nil hne
  rw [body, hdigits]
  cases l.mark <;> rfl

namespace LaysOut

theorem goesOn_of_mem_digits (h : l.LaysOut text) (hc : c ∈ l.digits) : GoesOn c :=
  .inl (l.base.alphabet_subset (h.digit c hc))

theorem replacement_notMem_reach (h : l.LaysOut text) : Text.Utf8.replacement ∉ l.reach := by
  intro hmem
  rw [reach, List.mem_append, List.mem_append, List.mem_append] at hmem
  rcases hmem with ((hblank | hsign) | hmark) | hdigit
  · exact absurd (h.leads.blank _ hblank) (by decide)
  · rcases h.leads.sign with hplus | ⟨hnone, -⟩
    · rw [hplus] at hsign
      exact absurd hsign (by decide)
    · rw [hnone] at hsign
      cases hsign
  · exact (h.announces.goesOn_of_mem_mark hmark).ne_replacement rfl
  · exact (h.goesOn_of_mem_digits hdigit).ne_replacement rfl

/-- A mark stays one where the text goes on no further. -/
theorem announces_of_reach (h : l.LaysOut text) (hne : l.digits ≠ [])
    (hrest : ∀ p, (∀ c ∈ p, GoesOn c) → p <+: rest → p <+: l.rest) :
    Announces l.mark l.base (l.digits ++ rest) := by
  obtain ⟨blanks, sign, mark, base, digits, rest₀⟩ := l
  obtain ⟨d, ds, rfl⟩ := List.exists_cons_of_ne_nil hne
  have hannounces : Announces mark base (d :: (ds ++ rest₀)) := h.announces
  have hdigit : ∀ c ∈ d :: ds, c ∈ base.alphabet := h.digit
  show Announces mark base (d :: (ds ++ rest))
  cases hannounces with
  | hexadecimal hx hd => exact .hexadecimal hx hd
  | octal hno =>
    refine .octal fun x y more heq hx hy => ?_
    cases ds with
    | nil =>
      -- a mark that is one now would have been one before
      have hgoes : ∀ c ∈ [x, y], GoesOn c := by
        simpa using ⟨Or.inr hx, Or.inl hy⟩
      obtain ⟨more', hmore⟩ := hrest [x, y] hgoes ⟨more, heq.symm⟩
      exact hno x y more' hmore.symm hx hy
    | cons z zs =>
      obtain rfl : z = x := (List.cons.inj heq).1
      exact absurd (hdigit z (by simp)) (notMem_octal_of_mark hx)
  | decimal hhead => exact .decimal hhead

/-- What follows the digits matters no more than it goes on with them. -/
theorem of_reach (h : l.LaysOut text) (hne : l.digits ≠ [])
    (hrest : ∀ p, (∀ c ∈ p, GoesOn c) → p <+: rest → p <+: l.rest) :
    { l with rest := rest }.LaysOut (l.reach ++ rest) where
  text_eq := (reach_append { l with rest := rest }).symm
  leads := h.leads.congr_head (head?_body hne rest)
  announces := h.announces_of_reach hne hrest
  digit := h.digit
  longest c hc hdigit := by
    have hgoes : ∀ c' ∈ [c], GoesOn c' := by
      intro c' hc'
      exact List.mem_singleton.mp hc' ▸ .inl (l.base.alphabet_subset hdigit)
    obtain ⟨more, hmore⟩ := List.head?_eq_some_iff.mp hc
    obtain ⟨more', hmore'⟩ := hrest [c] hgoes ⟨more, hmore.symm⟩
    exact h.longest c (by rw [← hmore']; rfl) hdigit

/-- So the same is read. -/
theorem auto?_reach_append (h : l.LaysOut text) (hne : l.digits ≠ [])
    (hrest : ∀ p, (∀ c ∈ p, GoesOn c) → p <+: rest → p <+: l.rest) :
    auto? (l.reach ++ rest) = auto? text := by
  rw [(h.of_reach hne hrest).auto?_eq, h.auto?_eq]
  rfl

/-- Where the beginning of a text shows digits, blanks and sign are those of the text. -/
theorem body_of_prefix (h : l.LaysOut text) (h' : l'.LaysOut cs) (hne : l'.digits ≠ [])
    (htext : l'.reach ++ rest = text) :
    l.blanks = l'.blanks ∧ l.sign = l'.sign ∧ l.body = l'.mark ++ (l'.digits ++ rest) := by
  refine h.leads.unique (h'.leads.congr_head (head?_body hne rest)) (h.text_eq.trans ?_)
  rw [← htext]
  simp only [reach, List.append_assoc]

/-- Of a text and a beginning of it that shows digits, the whole has the same base and
these digits and more, or the beginning shows no more than the `0` of a mark. -/
theorem of_prefix (h : l.LaysOut text) (h' : l'.LaysOut cs) (hne : l'.digits ≠ [])
    (hshown : l'.reach <+: text) :
    (l.base = l'.base ∧ ∃ more, l.digits = l'.digits ++ more ∧ l.reach = l'.reach ++ more) ∨
      l.digits ≠ [] ∧ l'.value = 0 := by
  obtain ⟨rest, htext⟩ := hshown
  obtain ⟨hblanks, hsign, hbody⟩ := h.body_of_prefix h' hne htext
  obtain ⟨d, ds, hdigits⟩ := List.exists_cons_of_ne_nil hne
  have hannounces := h'.announces
  have hbody' : l.mark ++ (l.digits ++ l.rest) = l'.mark ++ d :: (ds ++ rest) := by
    rw [← List.cons_append, ← hdigits]
    exact hbody
  rw [hdigits, List.cons_append] at hannounces
  have hdigit : ∀ c ∈ ds, c ∈ l'.base.alphabet :=
    fun c hc => h'.digit c (hdigits ▸ List.mem_cons_of_mem d hc)
  rcases h.announces.of_prefix hannounces hdigit hbody' with
    ⟨hmark, hbase, hafter⟩ | ⟨hmark, hbase, hzero⟩
  · left
    have hrun : l.digits = l'.digits ++ rest.takeWhile l.base.isDigit := by
      rw [← h.digits_eq.1, hafter, ← List.cons_append, ← hdigits, List.takeWhile_append_of_pos]
      exact fun c hc => Base.isDigit_iff.mpr (hbase ▸ h'.digit c hc)
    refine ⟨hbase, _, hrun, ?_⟩
    rw [reach, reach, hblanks, hsign, hmark, hrun, List.append_assoc _ l'.digits]
  · right
    constructor
    · -- a text that begins with `0` has digits in any base
      intro hnil
      have hhead : l.body.head? = some '0' := by
        rw [hbody, hmark, hdigits, hzero]
        rfl
      exact h.digits_eq_nil_iff.mp hnil '0' hhead (by decide)
    · rw [value, hbase, hdigits, hzero]
      decide

end LaysOut

/-- With more digits a value stays what it is only if it is zero. -/
theorem value_eq_iff_of_append {more : List Char} (hmore : more ≠ []) (hbase : l.base = l'.base)
    (hdigits : l.digits = l'.digits ++ more) : l.value = l'.value ↔ l.value = 0 := by
  have hvalue : l.value = Nat.ofDigits l'.base.size (more.reverse.map worth) +
      l'.base.size ^ more.length * l'.value := by
    rw [value, hbase, hdigits, List.reverse_append, List.map_append, Nat.ofDigits_append,
      List.length_map, List.length_reverse, value]
  have hsize : 2 ≤ l'.base.size := by cases l'.base <;> decide
  -- what stood there before now counts at least twice
  have hpower : 2 * l'.value ≤ l'.base.size ^ more.length * l'.value := by
    refine Nat.mul_le_mul_right _ (hsize.trans ?_)
    exact Nat.le_self_pow (by simpa using hmore) _
  omega

end Layout

/-! ## Newlines -/

/-- A newline at the end of a text makes no difference. -/
theorem auto?_append_newline (cs : List Char) : auto? (cs ++ ['\n']) = auto? cs := by
  obtain ⟨l, hl⟩ := Layout.exists_laysOut cs
  obtain ⟨l', hl'⟩ := Layout.exists_laysOut (cs ++ ['\n'])
  refine Option.ext fun v => ⟨fun hv => ?_, fun hv => ?_⟩
  · have hne := (hl'.auto?_eq_some_iff.mp hv).1
    have htext : l'.reach ++ l'.rest = cs ++ ['\n'] := l'.reach_append.trans hl'.text_eq
    rcases List.eq_nil_or_concat l'.rest with hnil | ⟨rest, c, hrest⟩
    · -- a numeral does not end in a newline
      obtain ⟨front, d, hdigits⟩ := (List.eq_nil_or_concat l'.digits).resolve_left hne
      rw [hnil, List.append_nil, Layout.reach, hdigits, List.concat_eq_append,
        ← List.append_assoc] at htext
      obtain rfl : d = '\n' := List.singleton_inj.mp (List.append_inj' htext rfl).2
      exact absurd (hl'.goesOn_of_mem_digits (by simp [hdigits])) not_goesOn_newline
    · rw [List.concat_eq_append] at hrest
      rw [hrest, ← List.append_assoc] at htext
      rw [← (List.append_inj' htext rfl).1, hl'.auto?_reach_append hne, hv]
      rw [hrest]
      exact fun p _ hprefix => hprefix.trans (List.prefix_append rest [c])
  · have hne := (hl.auto?_eq_some_iff.mp hv).1
    have htext : l.reach ++ (l.rest ++ ['\n']) = cs ++ ['\n'] := by
      rw [← List.append_assoc, l.reach_append, hl.text_eq]
    rw [← htext, hl.auto?_reach_append hne, hv]
    intro p hp hprefix
    rcases List.prefix_concat_iff.mp hprefix with heq | hprefix
    · exact absurd (hp '\n' (by simp [heq])) not_goesOn_newline
    · exact hprefix

/-! ## Cut texts -/

namespace Layout

variable {l : Layout}

/-- From the beginning of a text that shows a number at all, the number of the text is read
just if it shows the numeral to the end of its digits, or if these are all zeros. The
beginning may end in a replacement character for what was cut. -/
theorem LaysOut.auto?_iff_of_cut (h : l.LaysOut text)
    (hcut : ∀ p, Text.Utf8.replacement ∉ p → p <+: cs → p <+: text) (hv : auto? cs = some v) :
    auto? text = some v ↔ l.reach <+: cs ∨ l.value = 0 := by
  obtain ⟨l', h'⟩ := exists_laysOut cs
  obtain ⟨hne', hvalue'⟩ := h'.auto?_eq_some_iff.mp hv
  have hreach' : l'.reach <+: text :=
    hcut _ h'.replacement_notMem_reach ⟨l'.rest, l'.reach_append.trans h'.text_eq⟩
  have hcompare := h.of_prefix h' hne' hreach'
  have hne : l.digits ≠ [] := by
    rcases hcompare with ⟨-, more, hdigits, -⟩ | ⟨hne, -⟩
    · rw [hdigits]
      exact List.append_ne_nil_of_left_ne_nil hne' more
    · exact hne
  by_cases hfit : l.reach <+: cs
  · obtain ⟨rest, rfl⟩ := hfit
    have hsame : auto? (l.reach ++ rest) = auto? text := by
      refine h.auto?_reach_append hne fun p hp hprefix => ?_
      have hmem : Text.Utf8.replacement ∉ l.reach ++ p := by
        rw [List.mem_append, not_or]
        exact ⟨h.replacement_notMem_reach, fun hmem => (hp _ hmem).ne_replacement rfl⟩
      have hwhole := hcut _ hmem ((List.prefix_append_right_inj l.reach).mpr hprefix)
      rw [← h.text_eq, ← l.reach_append] at hwhole
      exact (List.prefix_append_right_inj l.reach).mp hwhole
    exact iff_of_true (hsame.symm.trans hv) (.inl (List.prefix_append _ _))
  · rw [or_iff_right hfit, h.auto?_eq_some_iff, and_iff_right hne, ← hvalue']
    rcases hcompare with ⟨hbase, more, hdigits, hreach⟩ | ⟨-, hzero⟩
    · refine value_eq_iff_of_append (fun hnil => hfit ?_) hbase hdigits
      rw [hreach, hnil, List.append_nil]
      exact ⟨l'.rest, l'.reach_append.trans h'.text_eq⟩
    · rw [hzero]

end Layout

end Numeral

/-! ## The first bytes of a file -/

namespace Field

/-- The text that bytes hold, up to the first NUL. -/
def fullText (bytes : List UInt8) : List Char :=
  Text.Utf8.decodeLossy (bytes.takeWhile (· ≠ 0))

/-- To a number, the newline at the end of a line makes no difference. -/
theorem auto?_lineText (bytes : List UInt8) :
    Numeral.auto? (lineText bytes) = Numeral.auto? (fullText bytes) := by
  have hfull : fullText bytes = Text.Utf8.decodeLossy (textPart bytes) := rfl
  rcases decodeLossy_textPart_eq_or bytes with hline | ⟨-, hline⟩
  · rw [hfull, hline]
    exact (Numeral.auto?_append_newline _).symm
  · rw [hfull, hline]

/-- Bytes are read as the number that their text up to the first NUL spells. -/
theorem number_eq_ok_iff {bytes : List UInt8} {v : UInt64} :
    number bytes = .ok v ↔ Numeral.auto? (fullText bytes) = some v := by
  rw [← auto?_lineText, number]
  split
  next hempty =>
    have hnone : Numeral.auto? (lineText []) = none := rfl
    rw [hempty, hnone]
    constructor
    · intro h
      cases h
    · intro h
      cases h
  next =>
    cases Numeral.auto? (lineText bytes) <;> simp

/-- From the first bytes of a file that show a number at all, the number of the file is read
just if they show the numeral to the end of its digits, or if these are all zeros. -/
theorem auto?_take_iff {bytes : List UInt8} {limit : Nat} {v : UInt64}
    {l : Numeral.Layout} (hl : l.LaysOut (fullText bytes))
    (h : number (bytes.take limit) = .ok v) :
    Numeral.auto? (fullText bytes) = some v ↔
      l.reach <+: fullText (bytes.take limit) ∨ l.value = 0 := by
  refine hl.auto?_iff_of_cut (fun p hp hprefix => ?_) (number_eq_ok_iff.mp h)
  rw [fullText, ← List.take_takeWhile] at hprefix
  exact Text.Utf8.prefix_of_prefix_take limit hp hprefix

end Field

end PowerZones
