import LabelAutomaton.Json.Token
import LabelAutomaton.Proofs.Json.Literal
import LabelAutomaton.Proofs.Json.Numeral
import Mathlib.Data.List.Chain

/-!
# Spellings of tokens

`Token.Spells ts cs` says that the characters `cs` write the tokens `ts`, each in one of its
spellings, with white space wherever it may stand. It says nothing of how a text is read.

Reading cuts a text into tokens that it spells (`spells_ofChars`). Conversely, tokens that are
spelled are read as they are (`Spells.ofChars_append`), if only no number is followed by more of a
number; in a list that is `Separable` from one token to the next.
-/

set_option autoImplicit false

namespace LabelAutomaton.Json.Token

/-! ## One token -/

/-- Whether all tokens of this kind are written alike. -/
def isFixed : Token → Bool
  | number _ | string _ | bad => false
  | _ => true

/-- The ways to write a token. A string with an unpaired surrogate can be written, but is the
spelling of no text. -/
inductive Spelling : Token → List Char → Prop
  | fixed {t : Token} (h : t.isFixed = true) : Spelling t t.toChars
  | number {n : Numeral} {cs : List Char} (h : n.Spelling cs) : Spelling (number n) cs
  | string {text : String} {cs : List Char} (h : Literal.Spelling text.toList cs) :
      Spelling (string (some text)) ('"' :: (cs ++ ['"']))
  | unpaired {ps : List Piece} {cs : List Char} (h : Literal.Spells ps cs)
      (hnone : ∀ text, ¬Literal.Spelling text cs) : Spelling (string none) ('"' :: (cs ++ ['"']))

theorem readWord_eq_some_iff {word cs rest : List Char} :
    readWord word cs = some rest ↔ cs = word ++ rest := by
  rw [readWord]
  split
  · rename_i h
    obtain ⟨cs', rfl⟩ := List.isPrefixOf_iff_prefix.1 h
    simp [eq_comm]
  · rename_i h
    refine iff_of_false (by simp) ?_
    rintro rfl
    exact absurd (List.isPrefixOf_iff_prefix.2 (List.prefix_append word rest)) h

/-- What is read spells the token. -/
theorem exists_spelling_of_read {c : Char} {cs rest : List Char} {t : Token}
    (h : read c cs = some (t, rest)) : ∃ w, t.Spelling w ∧ c :: cs = w ++ rest := by
  rw [read.eq_def] at h
  split at h
  case h_7 | h_8 | h_9 =>
    simp only [Option.map_eq_some_iff, Prod.mk.injEq] at h
    obtain ⟨_, hword, rfl, rfl⟩ := h
    obtain rfl := readWord_eq_some_iff.1 hword
    exact ⟨_, .fixed rfl, rfl⟩
  case h_10 =>
    simp only [Option.map_eq_some_iff, Prod.exists, Prod.mk.injEq] at h
    obtain ⟨ps, _, hpieces, rfl, rfl⟩ := h
    obtain ⟨w, hw, rfl⟩ := Literal.pieces_eq_some_iff.1 hpieces
    refine ⟨'"' :: (w ++ ['"']), ?_, by simp⟩
    rw [Literal.text?]
    cases hchars : Literal.chars? ps with
    | none =>
      refine .unpaired hw fun text htext ↦ ?_
      rw [(Literal.chars?_eq_some_iff hw).2 htext] at hchars
      cases hchars
    | some text =>
      refine .string ?_
      rw [String.toList_ofList]
      exact (Literal.chars?_eq_some_iff hw).1 hchars
  case h_11 =>
    simp only [Option.map_eq_some_iff, Prod.exists, Prod.mk.injEq] at h
    obtain ⟨_, _, hread, rfl, rfl⟩ := h
    obtain ⟨w, hw, hcs⟩ := Numeral.exists_spelling_of_read hread
    exact ⟨w, .number hw, hcs⟩
  all_goals
    obtain ⟨rfl, rfl⟩ := Prod.mk.inj (Option.some.inj h)
    exact ⟨_, .fixed rfl, rfl⟩

/-- Whether the token is a number. -/
def isNumber : Token → Bool
  | number _ => true
  | _ => false

/-- No white space stands in front of a number. -/
theorem read_of_number {c : Char} (hc : c = '-' ∨ c.isDigit = true) (cs : List Char) :
    isSpace c = false ∧
      read c cs = (Numeral.read (c :: cs)).map fun p ↦ (number p.1, p.2) := by
  refine ⟨?_, ?_⟩
  · rw [Bool.eq_false_iff]
    intro hspace
    simp only [isSpace, Bool.or_eq_true, beq_iff_eq] at hspace
    rcases hspace with ((rfl | rfl) | rfl) | rfl <;> exact absurd hc (by decide)
  · rw [read.eq_def]
    split
    case h_11 => rfl
    all_goals exact absurd hc (by decide)

/-- A spelling of a token is read as that token. -/
theorem Spelling.read {t : Token} {w : List Char} (h : t.Spelling w) {rest : List Char}
    (hrest : t.isNumber = true → EndsNumber rest) :
    ∃ c cs, w = c :: cs ∧ isSpace c = false ∧ Token.read c (cs ++ rest) = some (t, rest) := by
  cases h with
  | fixed hfixed =>
    cases t with
    | number | string | bad => cases hfixed
    | bool b => cases b <;> exact ⟨_, _, rfl, by decide, rfl⟩
    | _ => exact ⟨_, _, rfl, by decide, rfl⟩
  | number hn =>
    obtain ⟨c, cs, rfl, hc⟩ := hn.exists_cons
    have hread := hn.read (hrest rfl)
    obtain ⟨hspace, hnumber⟩ := read_of_number hc (cs ++ rest)
    refine ⟨c, cs, rfl, hspace, ?_⟩
    rw [hnumber, ← List.cons_append, hread]
    rfl
  | @string text cs htext =>
    obtain ⟨ps, hps, hchars⟩ := htext.exists_spells
    have hpieces : Literal.pieces (cs ++ '"' :: rest) = some (ps, rest) :=
      Literal.pieces_eq_some_iff.2 ⟨cs, hps, rfl⟩
    refine ⟨_, _, rfl, by decide, ?_⟩
    rw [List.append_assoc, List.singleton_append, Token.read, hpieces, Option.map_some]
    simp only [Literal.text?, hchars, Option.map_some, String.ofList_toList]
  | @unpaired ps cs hps hnone =>
    have hpieces : Literal.pieces (cs ++ '"' :: rest) = some (ps, rest) :=
      Literal.pieces_eq_some_iff.2 ⟨cs, hps, rfl⟩
    have hchars : Literal.chars? ps = none :=
      Option.eq_none_iff_forall_ne_some.2 fun text htext ↦
        hnone text ((Literal.chars?_eq_some_iff hps).1 htext)
    refine ⟨_, _, rfl, by decide, ?_⟩
    rw [List.append_assoc, List.singleton_append, Token.read, hpieces, Option.map_some]
    simp only [Literal.text?, hchars, Option.map_none]

/-! ## Many tokens -/

/-- The ways to write tokens one after the other, with white space around them. -/
inductive Spells : List Token → List Char → Prop
  | nil : Spells [] []
  | space {c : Char} {ts : List Token} {cs : List Char} (hc : isSpace c = true)
      (h : Spells ts cs) : Spells ts (c :: cs)
  | token {t : Token} {w cs : List Char} {ts : List Token} (ht : t.Spelling w)
      (h : Spells ts cs) : Spells (t :: ts) (w ++ cs)

theorem ofChars_space {c : Char} (hc : isSpace c = true) (cs : List Char) :
    ofChars (c :: cs) = ofChars cs := by rw [ofChars, if_pos hc]

theorem ofChars_cons {c : Char} {cs rest : List Char} {t : Token} (hspace : isSpace c = false)
    (h : read c cs = some (t, rest)) : ofChars (c :: cs) = t :: ofChars rest := by
  rw [ofChars, if_neg (by simp [hspace])]
  split
  · rename_i hnone
    rw [h] at hnone
    cases hnone
  · rename_i t' rest' hsome
    rw [h] at hsome
    obtain ⟨rfl, rfl⟩ := Prod.mk.inj (Option.some.inj hsome)
    rfl

/-- **A text spells the tokens into which it is cut**, if all of it can be read. -/
theorem spells_ofChars {cs : List Char} (h : bad ∉ ofChars cs) : Spells (ofChars cs) cs := by
  fun_induction ofChars cs with
  | case1 => exact .nil
  | case2 c cs hspace ih => exact .space hspace (ih h)
  | case3 => simp at h
  | case4 c cs hspace t rest hread ih =>
    obtain ⟨w, hw, hcs⟩ := exists_spelling_of_read hread
    rw [hcs]
    exact .token hw (ih fun hmem ↦ h (List.mem_cons_of_mem t hmem))

/-- Only white space holds no tokens. -/
theorem ofChars_eq_nil_iff {cs : List Char} : ofChars cs = [] ↔ ∀ c ∈ cs, isSpace c = true := by
  fun_induction ofChars cs with
  | case1 => simp
  | case2 c cs hspace ih => simp [ih, hspace]
  | case3 c cs hspace => simp [hspace]
  | case4 c cs hspace => simp [hspace]

/-- Whether the token may stand behind a value. -/
def followsValue : Token → Bool
  | comma | closeArray | closeObject => true
  | _ => false

/-- The second token cannot be taken for more of the first. -/
def Separable (t u : Token) : Prop := t.isNumber = true → u.followsValue = true

/-- What comes behind a number ends it. -/
theorem Spells.endsNumber {ts : List Token} {cs rest : List Char} (h : Spells ts cs)
    (hfirst : ∀ t ∈ ts.head?, t.followsValue = true) (hrest : ts = [] → EndsNumber rest) :
    EndsNumber (cs ++ rest) := by
  cases h with
  | nil => exact hrest rfl
  | space hc =>
    simp only [isSpace, Bool.or_eq_true, beq_iff_eq] at hc
    rcases hc with ((rfl | rfl) | rfl) | rfl <;> exact endsNumber_cons (by decide) _
  | @token t w cs ts ht =>
    have hfollows := hfirst t rfl
    cases ht with
    | fixed =>
      cases t with
      | comma | closeArray | closeObject => exact endsNumber_cons (by decide) _
      | _ => cases hfollows
    | number | string | unpaired => cases hfollows

/-- **Tokens that are spelled are read**, whatever follows, if it is not more of a number. -/
theorem Spells.ofChars_append {ts : List Token} {cs rest : List Char} (h : Spells ts cs)
    (hchain : ts.IsChain Separable)
    (hlast : ∀ t ∈ ts.getLast?, t.isNumber = true → EndsNumber rest) :
    ofChars (cs ++ rest) = ts ++ ofChars rest := by
  induction h with
  | nil => rfl
  | space hc _ ih =>
    rw [List.cons_append, ofChars_space hc]
    exact ih hchain hlast
  | @token t w cs ts ht hts ih =>
    have hends : t.isNumber = true → EndsNumber (cs ++ rest) := by
      intro hnumber
      refine hts.endsNumber (fun u hu ↦ ?_) ?_
      · exact (List.isChain_cons.1 hchain).1 u hu hnumber
      · rintro rfl
        exact hlast t rfl hnumber
    have hlast' : ∀ u ∈ ts.getLast?, u.isNumber = true → EndsNumber rest := by
      intro u hu
      refine hlast u ?_
      rw [List.getLast?_cons, Option.mem_def.1 hu]
      rfl
    obtain ⟨c, w', rfl, hspace, hread⟩ := ht.read hends
    rw [List.append_assoc, List.cons_append, ofChars_cons hspace hread,
      ih (List.isChain_cons.1 hchain).2 hlast', List.cons_append]

/-! ## Writing -/

/-- Tokens that are written as they are spelled. -/
theorem spells_flatMap {ts : List Token} (h : ∀ t ∈ ts, t.Spelling t.toChars) :
    Spells ts (ts.flatMap toChars) := by
  induction ts with
  | nil => exact .nil
  | cons t ts ih =>
    rw [List.flatMap_cons]
    exact .token (h t List.mem_cons_self) (ih fun u hu ↦ h u (List.mem_cons_of_mem t hu))

theorem spelling_string (text : String) :
    (string (some text)).Spelling (string (some text)).toChars :=
  .string (Literal.spelling_escape text.toList)

theorem spelling_ofNat (n : Nat) : (number (.ofNat n)).Spelling (number (.ofNat n)).toChars :=
  .number (Numeral.spelling_ofNat n)

end LabelAutomaton.Json.Token
