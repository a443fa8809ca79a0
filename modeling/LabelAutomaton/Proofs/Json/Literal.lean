import LabelAutomaton.Json.Literal

/-!
# Spellings of a string

A string literal can be written in many ways. `Literal.Spelling text cs` says that the characters
`cs`, between quotes, are one of them: each character of the text stands for itself, or is written
by a short escape, by the number of its UTF-16 unit, or by two surrogates. `Literal.Spells ps cs`
says the same of pieces, and so allows a surrogate without a partner.

The reader finds the pieces that are spelled, up to the closing quote (`pieces_eq_some_iff`), and
they have the text that is spelled (`chars?_eq_some_iff`). What the writer makes of a text is one of
its spellings (`spelling_escape`).
-/

set_option autoImplicit false

namespace LabelAutomaton.Json.Literal

/-- The ways to write pieces between quotes. -/
inductive Spells : List Piece → List Char → Prop
  | nil : Spells [] []
  | plain {c : Char} {ps : List Piece} {cs : List Char} (hquote : c ≠ '"') (hslash : c ≠ '\\')
      (hcontrol : 32 ≤ c.toNat) (h : Spells ps cs) : Spells (.char c :: ps) (c :: cs)
  | short {c e : Char} {ps : List Piece} {cs : List Char} (he : shortEscape e = some c)
      (h : Spells ps cs) : Spells (.char c :: ps) ('\\' :: e :: cs)
  | unit {n : Nat} {x y z w : Char} {ps : List Piece} {cs : List Char}
      (hn : hexUnit x y z w = some n) (h : Spells ps cs) :
      Spells (.unit n :: ps) ('\\' :: 'u' :: x :: y :: z :: w :: cs)

/-- The ways to write a text between quotes. -/
inductive Spelling : List Char → List Char → Prop
  | nil : Spelling [] []
  | plain {c : Char} {text cs : List Char} (hquote : c ≠ '"') (hslash : c ≠ '\\')
      (hcontrol : 32 ≤ c.toNat) (h : Spelling text cs) : Spelling (c :: text) (c :: cs)
  | short {c e : Char} {text cs : List Char} (he : shortEscape e = some c)
      (h : Spelling text cs) : Spelling (c :: text) ('\\' :: e :: cs)
  | unit {c x y z w : Char} {text cs : List Char} (hc : hexUnit x y z w = some c.toNat)
      (h : Spelling text cs) : Spelling (c :: text) ('\\' :: 'u' :: x :: y :: z :: w :: cs)
  | pair {c x y z w x' y' z' w' : Char} {high low : Nat} {text cs : List Char}
      (hhigh : hexUnit x y z w = some high) (hlow : hexUnit x' y' z' w' = some low)
      (hhigh' : isHigh high = true) (hlow' : isLow low = true)
      (hc : c.toNat = 0x10000 + (high - 0xD800) * 0x400 + (low - 0xDC00))
      (h : Spelling text cs) :
      Spelling (c :: text)
        ('\\' :: 'u' :: x :: y :: z :: w :: '\\' :: 'u' :: x' :: y' :: z' :: w' :: cs)

/-! ## The pieces -/

theorem hexDigit_lt {c : Char} {n : Nat} (h : hexDigit c = some n) : n < 16 := by
  have hle {a b : Char} (hab : a ≤ b) : a.toNat ≤ b.toNat := hab
  rw [hexDigit] at h
  repeat' split at h
  case isFalse => cases h
  all_goals
    rename_i hc
    have := hle hc.2
    obtain rfl := Option.some.inj h
    simp only [Char.reduceToNat] at this ⊢
    omega

theorem hexUnit_lt {x y z w : Char} {n : Nat} (h : hexUnit x y z w = some n) : n < 0x10000 := by
  simp only [hexUnit, Option.bind_eq_bind, Option.bind_eq_some_iff, Option.pure_def,
    Option.some.injEq] at h
  obtain ⟨a, ha, b, hb, c, hc, d, hd, rfl⟩ := h
  have := hexDigit_lt ha
  have := hexDigit_lt hb
  have := hexDigit_lt hc
  have := hexDigit_lt hd
  omega

/-- **The reader finds the pieces that are spelled**, and stops behind the closing quote. -/
theorem pieces_eq_some_iff {cs rest : List Char} {ps : List Piece} :
    pieces cs = some (ps, rest) ↔ ∃ w, Spells ps w ∧ cs = w ++ '"' :: rest := by
  constructor
  · intro h
    fun_induction pieces cs generalizing ps with
    | case1 => cases h
    | case2 rest' =>
      obtain ⟨rfl, rfl⟩ := Prod.mk.inj (Option.some.inj h)
      exact ⟨[], .nil, rfl⟩
    | case3 a b c d rest' ih =>
      simp only [Option.bind_eq_bind, Option.bind_eq_some_iff, Option.pure_def,
        Option.some.injEq, Prod.mk.injEq, Prod.exists] at h
      obtain ⟨n, hn, ps', _, h', rfl, rfl⟩ := h
      obtain ⟨w, hw, rfl⟩ := ih h'
      exact ⟨_, .unit hn hw, rfl⟩
    | case4 e rest' _ ih =>
      simp only [Option.bind_eq_bind, Option.bind_eq_some_iff, Option.pure_def,
        Option.some.injEq, Prod.mk.injEq, Prod.exists] at h
      obtain ⟨c, hc, ps', _, h', rfl, rfl⟩ := h
      obtain ⟨w, hw, rfl⟩ := ih h'
      exact ⟨_, .short hc hw, rfl⟩
    | case5 => cases h
    | case6 => cases h
    | case7 c rest' hquote _ hslash hslash' hcontrol ih =>
      simp only [Option.bind_eq_bind, Option.bind_eq_some_iff, Option.pure_def,
        Option.some.injEq, Prod.mk.injEq, Prod.exists] at h
      obtain ⟨ps', _, h', rfl, rfl⟩ := h
      obtain ⟨w, hw, rfl⟩ := ih h'
      refine ⟨_, .plain hquote ?_ (by omega) hw, rfl⟩
      rintro rfl
      cases w with
      | nil => exact hslash _ _ rfl rfl
      | cons d w => exact hslash _ _ rfl rfl
  · rintro ⟨w, hw, rfl⟩
    induction hw with
    | nil => rfl
    | plain hquote hslash hcontrol _ ih =>
      rw [List.cons_append, pieces, if_neg (by omega), ih]
      · rfl
      · exact hquote
      all_goals simp [hslash]
    | @short c e ps cs he _ ih =>
      rw [List.cons_append, List.cons_append, pieces, he, ih]
      · rfl
      · rintro _ _ _ _ _ rfl
        cases he
    | unit hn _ ih =>
      simp only [List.cons_append, pieces, hn, ih]
      rfl

/-- A spelling has its pieces. -/
theorem Spells.eq {ps ps' : List Piece} {cs : List Char} (h : Spells ps cs) (h' : Spells ps' cs) :
    ps = ps' := by
  have hread : pieces (cs ++ ['"']) = some (ps, []) := pieces_eq_some_iff.2 ⟨cs, h, rfl⟩
  rw [pieces_eq_some_iff.2 ⟨cs, h', rfl⟩] at hread
  exact (Prod.mk.inj (Option.some.inj hread)).1.symm

/-! ## The text -/

theorem toNat_ofNat {n : Nat} (h : n.isValidChar) : (Char.ofNat n).toNat = n := by
  rw [Char.ofNat, dif_pos h]
  rfl

/-- Characters are no surrogates. -/
theorem isHigh_toNat (c : Char) : isHigh c.toNat = false := by
  have hvalid : c.toNat.isValidChar := c.valid
  simp only [isHigh, Nat.isValidChar] at *
  grind

theorem isLow_toNat (c : Char) : isLow c.toNat = false := by
  have hvalid : c.toNat.isValidChar := c.valid
  simp only [isLow, Nat.isValidChar] at *
  grind

/-- A unit that is no surrogate is a character. -/
theorem chars?_unit {n : Nat} (hhigh : isHigh n = false) (hlow : isLow n = false)
    (ps : List Piece) : chars? (.unit n :: ps) = (chars? ps).map (Char.ofNat n :: ·) := by
  rw [chars?.eq_def]
  split
  case h_1 | h_2 => simp_all
  case h_3 heq | h_4 heq =>
    simp only [List.cons.injEq, Piece.unit.injEq] at heq
    obtain ⟨rfl, rfl⟩ := heq
    simp [hhigh, hlow]

/-- A text that is spelled is the text of the pieces. -/
theorem Spelling.exists_spells {text cs : List Char} (h : Spelling text cs) :
    ∃ ps, Spells ps cs ∧ chars? ps = some text := by
  induction h with
  | nil => exact ⟨[], .nil, rfl⟩
  | plain hquote hslash hcontrol _ ih =>
    obtain ⟨ps, hps, htext⟩ := ih
    exact ⟨_, .plain hquote hslash hcontrol hps, by rw [chars?, htext]; rfl⟩
  | short he _ ih =>
    obtain ⟨ps, hps, htext⟩ := ih
    exact ⟨_, .short he hps, by rw [chars?, htext]; rfl⟩
  | @unit c _ _ _ _ _ _ hc _ ih =>
    obtain ⟨ps, hps, htext⟩ := ih
    refine ⟨_, .unit hc hps, ?_⟩
    rw [chars?_unit (isHigh_toNat c) (isLow_toNat c), htext, Char.ofNat_toNat]
    rfl
  | @pair c _ _ _ _ _ _ _ _ _ _ _ _ hhigh hlow hhigh' hlow' hc _ ih =>
    obtain ⟨ps, hps, htext⟩ := ih
    refine ⟨_, .unit hhigh (.unit hlow hps), ?_⟩
    rw [chars?, if_pos hhigh', if_pos hlow', htext, ← hc, Char.ofNat_toNat]
    rfl

/-- Pieces that have a text spell it. -/
theorem Spells.spelling {ps : List Piece} {text cs : List Char} (h : Spells ps cs)
    (htext : chars? ps = some text) : Spelling text cs := by
  have hvalid {n : Nat} (hn : n < 0x10000) (hhigh : ¬isHigh n = true) (hlow : ¬isLow n = true) :
      (Char.ofNat n).toNat = n := by
    refine toNat_ofNat ?_
    simp only [isHigh, isLow, Nat.isValidChar] at *
    grind
  fun_induction chars? ps generalizing text cs with
  | case1 =>
    obtain rfl := Option.some.inj htext
    cases h
    exact .nil
  | case2 c rest ih =>
    obtain ⟨text', htail, rfl⟩ := Option.map_eq_some_iff.1 htext
    cases h with
    | plain hquote hslash hcontrol h => exact .plain hquote hslash hcontrol (ih h htail)
    | short he h => exact .short he (ih h htail)
  | case3 high low rest hhigh hlow ih =>
    obtain ⟨text', htail, rfl⟩ := Option.map_eq_some_iff.1 htext
    cases h with | unit hn h =>
    cases h with | unit hn' h =>
    refine .pair hn hn' hhigh hlow (toNat_ofNat ?_) (ih h htail)
    simp only [isHigh, isLow, Nat.isValidChar] at *
    grind
  | case4 => cases htext
  | case5 => cases htext
  | case6 high low rest hhigh hlow ih =>
    obtain ⟨text', htail, rfl⟩ := Option.map_eq_some_iff.1 htext
    cases h with | unit hn h =>
    refine .unit ?_ (ih h htail)
    rw [hn, hvalid (hexUnit_lt hn) hhigh hlow]
  | case7 => cases htext
  | case8 n rest _ hsurrogate ih =>
    obtain ⟨text', htail, rfl⟩ := Option.map_eq_some_iff.1 htext
    rw [Bool.or_eq_true, not_or] at hsurrogate
    cases h with | unit hn h =>
    refine .unit ?_ (ih h htail)
    rw [hn, hvalid (hexUnit_lt hn) hsurrogate.1 hsurrogate.2]

/-- **Pieces have the text that is spelled.** -/
theorem chars?_eq_some_iff {ps : List Piece} {text cs : List Char} (h : Spells ps cs) :
    chars? ps = some text ↔ Spelling text cs := by
  refine ⟨h.spelling, fun htext ↦ ?_⟩
  obtain ⟨ps', hps', htext'⟩ := htext.exists_spells
  rw [h.eq hps', htext']

/-! ## Writing -/

theorem shortEscape_of_shortOf {c e : Char} (h : shortOf c = some e) : shortEscape e = some c := by
  rw [shortOf.eq_def] at h
  split at h <;> simp_all <;> subst h <;> decide

theorem hexDigit_digitChar {n : Nat} (h : n < 16) : hexDigit (Nat.digitChar n) = some n := by
  revert n
  decide

theorem hexUnit_digitChar {n : Nat} (h : n < 256) :
    hexUnit '0' '0' (Nat.digitChar (n / 16)) (Nat.digitChar (n % 16)) = some n := by
  rw [hexUnit, hexDigit_digitChar (by omega), hexDigit_digitChar (by omega),
    show hexDigit '0' = some 0 by decide]
  simp only [Option.bind_eq_bind, Option.bind_some, Option.pure_def, Option.some.injEq]
  omega

/-- A text is written in one of its spellings. -/
theorem spelling_escape (text : List Char) : Spelling text (escape text) := by
  induction text with
  | nil => exact .nil
  | cons c text ih =>
    rw [escape, List.flatMap_cons, escapeChar]
    split
    · rename_i e he
      exact .short (shortEscape_of_shortOf he) ih
    · rename_i hnone
      split
      · exact .unit (hexUnit_digitChar (by omega)) ih
      · have hquote : c ≠ '"' := fun h ↦ by simp [h, shortOf] at hnone
        have hslash : c ≠ '\\' := fun h ↦ by simp [h, shortOf] at hnone
        exact .plain hquote hslash (by omega) ih

end LabelAutomaton.Json.Literal
