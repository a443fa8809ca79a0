import LabelAutomaton.Calendar.Instant.Text
import LabelAutomaton.Proofs.Json.Numeral
import Mathlib.Data.List.TakeWhile
import Mathlib.Tactic.SplitIfs

/-!
# Spellings of an instant

`Instant.Spelling here offset cs` says that the characters `cs` are a way to write the local time
`here` at a place whose clocks are `offset` minutes ahead: a date, a time and an offset, with white
space before each of their parts. The reader does not occur in it.

The parts are read one after the other, so there are two lemmas for each: what is read of the
characters is spelled by those that are taken, and what is spelled is read if the rest does not go
on with a digit. Together they say that a timestamp is read just if it spells a local time that has
an instant (`Instant.exists_spelling`, `Instant.Spelling.read`).
-/

set_option autoImplicit false

namespace LabelAutomaton

open Json.Numeral (AreDigits)

/-- The characters are white space. -/
def Blanks (cs : List Char) : Prop := ∀ c ∈ cs, isBlank c = true

theorem trimLeft_append {bs : List Char} (h : Blanks bs) (cs : List Char) :
    trimLeft (bs ++ cs) = trimLeft cs := by
  rw [trimLeft, List.dropWhile_append_of_pos h, trimLeft]

theorem exists_blanks_append (cs : List Char) : ∃ bs, Blanks bs ∧ cs = bs ++ trimLeft cs :=
  ⟨cs.takeWhile isBlank, fun c hc ↦ List.all_eq_true.1 List.all_takeWhile c hc,
    List.takeWhile_append_dropWhile.symm⟩

theorem trimLeft_eq_nil_iff {cs : List Char} : trimLeft cs = [] ↔ Blanks cs := by
  rw [trimLeft, List.dropWhile_eq_nil_iff]
  rfl

/-- No digit is white space. -/
theorem isBlank_of_isDigit {c : Char} (h : c.isDigit = true) : isBlank c = false := by
  rw [Bool.eq_false_iff]
  intro hblank
  have hall : (blanks.all fun d ↦ !d.isDigit) = true := by decide
  have hnot : (!c.isDigit) = true := List.all_eq_true.1 hall c (List.contains_iff_mem.1 hblank)
  rw [h] at hnot
  cases hnot

/-- There is nothing to trim where a text begins with something else than white space. -/
theorem trimLeft_cons {c : Char} (h : isBlank c = false) (cs : List Char) :
    trimLeft (c :: cs) = c :: cs := by
  rw [trimLeft, List.dropWhile_cons_of_neg (by simp [h])]

namespace Instant

/-! ## The ways to write the parts -/

/-- White space and a number of at most `width` digits. -/
inductive NumberSpelling (width : Nat) : Nat → List Char → Prop
  | mk {bs ds : List Char} (hbs : Blanks bs) (hds : AreDigits ds) (hwidth : ds.length ≤ width) :
      NumberSpelling width (Nat.ofDigitChars 10 ds 0) (bs ++ ds)

/-- White space and a mark. -/
inductive MarkSpelling (mark : Char) : List Char → Prop
  | mk {bs : List Char} (hbs : Blanks bs) : MarkSpelling mark (bs ++ [mark])

/-- White space and a year: up to four digits, or any number of them behind a sign. -/
inductive YearSpelling : Int → List Char → Prop
  | bare {n : Nat} {cs : List Char} (h : NumberSpelling 4 n cs) : YearSpelling n cs
  | plus {bs ds : List Char} (hbs : Blanks bs) (hds : AreDigits ds) :
      YearSpelling (Nat.ofDigitChars 10 ds 0 : Nat) (bs ++ '+' :: ds)
  | minus {bs ds : List Char} (hbs : Blanks bs) (hds : AreDigits ds) :
      YearSpelling (-(Nat.ofDigitChars 10 ds 0 : Nat)) (bs ++ '-' :: ds)

/-- A fraction of a second, in nanoseconds; of the digits nine count. -/
inductive FractionSpelling : Nat → List Char → Prop
  | none : FractionSpelling 0 []
  | point {ds : List Char} (hds : AreDigits ds) :
      FractionSpelling (Nat.ofDigitChars 10 (ds.take 9) 0 * Nat.pow 10 (9 - (ds.take 9).length))
        ('.' :: ds)

/-- Two digits for the hours and two for the minutes of an offset below a day. -/
inductive ClockSpelling : Nat → List Char → Prop
  | mk {a b c d : Char} {cs : List Char} (hdigits : ∀ x ∈ [a, b, c, d], x.isDigit = true)
      (hcs : ∀ x ∈ cs, (x == ':' || isBlank x) = true)
      (hminutes : Nat.ofDigitChars 10 [c, d] 0 < 60)
      (hday : Nat.ofDigitChars 10 [a, b] 0 * 60 + Nat.ofDigitChars 10 [c, d] 0 < 1440) :
      ClockSpelling (Nat.ofDigitChars 10 [a, b] 0 * 60 + Nat.ofDigitChars 10 [c, d] 0)
        (a :: b :: (cs ++ [c, d]))

/-- White space and an offset, in minutes. -/
inductive OffsetSpelling : Int → List Char → Prop
  | zulu {bs : List Char} {z : Char} (hbs : Blanks bs) (hz : z = 'Z' ∨ z = 'z') :
      OffsetSpelling 0 (bs ++ [z])
  | utc {bs : List Char} {u t c : Char} (hbs : Blanks bs)
      (hutc : [u, t, c].map Char.toLower = ['u', 't', 'c']) : OffsetSpelling 0 (bs ++ [u, t, c])
  | ahead {bs cs : List Char} {n : Nat} (hbs : Blanks bs) (h : ClockSpelling n cs) :
      OffsetSpelling n (bs ++ '+' :: cs)
  | behind {bs cs : List Char} {sign : Char} {n : Nat} (hbs : Blanks bs)
      (hsign : sign = '-' ∨ sign = '\u2212') (h : ClockSpelling n cs) :
      OffsetSpelling (-n) (bs ++ sign :: cs)

/-- The ways to write a local time with its offset. -/
inductive Spelling (here : Instant) (offset : Int) : List Char → Prop
  | mk {year dash month dash' day hour colon minute colon' second fraction ahead bs : List Char}
      {separator : Char}
      (hyear : YearSpelling here.date.year year) (hdash : MarkSpelling '-' dash)
      (hmonth : NumberSpelling 2 here.date.month month) (hdash' : MarkSpelling '-' dash')
      (hday : NumberSpelling 2 here.date.day day)
      (hseparator : separator = 'T' ∨ separator = 't' ∨ separator = ' ')
      (hhour : NumberSpelling 2 here.hour hour) (hcolon : MarkSpelling ':' colon)
      (hminute : NumberSpelling 2 here.minute minute) (hcolon' : MarkSpelling ':' colon')
      (hsecond : NumberSpelling 2 here.second second)
      (hfraction : FractionSpelling here.nano fraction)
      (hoffset : OffsetSpelling offset ahead) (hbs : Blanks bs) :
      Spelling here offset (year ++ (dash ++ (month ++ (dash' ++ (day ++ separator ::
        (hour ++ (colon ++ (minute ++ (colon' ++ (second ++ (fraction ++ (ahead ++ bs))))))))))))

/-! ## What is spelled is read -/

/-- White space followed by something that is no digit does not begin with a digit. -/
theorem noDigit_append {bs cs : List Char} (hbs : Blanks bs) (hcs : NoDigit cs) :
    NoDigit (bs ++ cs) := by
  cases bs with
  | nil => exact hcs
  | cons c bs =>
    refine noDigit_cons (Bool.eq_false_iff.2 fun hdigit ↦ ?_) _
    have hblank := hbs c List.mem_cons_self
    rw [isBlank_of_isDigit hdigit] at hblank
    cases hblank

theorem readDigits_append {width : Nat} {ds rest : List Char} (hne : ds ≠ [])
    (hds : ∀ c ∈ ds, c.isDigit = true) (hlen : ds.length ≤ width) (hrest : NoDigit rest) :
    readDigits width (ds ++ rest) = some (Nat.ofDigitChars 10 ds 0, rest) := by
  have htake : ((ds ++ rest).take width).takeWhile Char.isDigit = ds := by
    rw [List.take_append, List.take_of_length_le hlen]
    exact takeWhile_isDigit_append hds (hrest.take _)
  rw [readDigits, htake]
  simp [hne]

theorem NumberSpelling.read {width n : Nat} {cs rest : List Char} (h : NumberSpelling width n cs)
    (hrest : NoDigit rest) : readNumber width (cs ++ rest) = some (n, rest) := by
  cases h with
  | @mk bs ds hbs hds hwidth =>
    obtain ⟨c, ds, rfl, hc⟩ := hds.exists_cons
    rw [readNumber, List.append_assoc, trimLeft_append hbs, List.cons_append,
      trimLeft_cons (isBlank_of_isDigit hc), ← List.cons_append]
    exact readDigits_append hds.1 hds.2 hwidth hrest

theorem MarkSpelling.read {mark : Char} {cs : List Char} (h : MarkSpelling mark cs)
    (hmark : isBlank mark = false) (rest : List Char) : readMark mark (cs ++ rest) = some rest := by
  cases h with
  | mk hbs =>
    rw [readMark, List.append_assoc, trimLeft_append hbs, List.singleton_append,
      trimLeft_cons hmark]
    exact if_pos rfl

theorem MarkSpelling.noDigit {mark : Char} {cs : List Char} (h : MarkSpelling mark cs)
    (hmark : mark.isDigit = false) (rest : List Char) : NoDigit (cs ++ rest) := by
  cases h with
  | mk hbs =>
    rw [List.append_assoc]
    exact noDigit_append hbs (noDigit_cons hmark _)

theorem YearSpelling.read {year : Int} {cs rest : List Char} (h : YearSpelling year cs)
    (hrest : NoDigit rest) : readYear (cs ++ rest) = some (year, rest) := by
  have hsigned {ds : List Char} (hds : AreDigits ds) :
      readDigits (ds ++ rest).length (ds ++ rest) = some (Nat.ofDigitChars 10 ds 0, rest) :=
    readDigits_append hds.1 hds.2 (by simp) hrest
  cases h with
  | bare h =>
    have hread := h.read hrest
    cases h with
    | @mk bs ds hbs hds hwidth =>
      obtain ⟨c, ds, rfl, hc⟩ := hds.exists_cons
      rw [readNumber, List.append_assoc, trimLeft_append hbs, List.cons_append,
        trimLeft_cons (isBlank_of_isDigit hc)] at hread
      rw [readYear, List.append_assoc, trimLeft_append hbs, List.cons_append,
        trimLeft_cons (isBlank_of_isDigit hc)]
      split
      · rename_i heq
        rw [(List.cons.inj heq).1] at hc
        cases hc
      · rename_i heq
        rw [(List.cons.inj heq).1] at hc
        cases hc
      · rw [hread]
        rfl
  | plus hbs hds =>
    rw [readYear, List.append_assoc, trimLeft_append hbs, List.cons_append,
      trimLeft_cons (by decide)]
    simp only [hsigned hds, Option.map_some]
  | minus hbs hds =>
    rw [readYear, List.append_assoc, trimLeft_append hbs, List.cons_append,
      trimLeft_cons (by decide)]
    simp only [hsigned hds, Option.map_some]

theorem FractionSpelling.read {nano : Nat} {cs rest : List Char} (h : FractionSpelling nano cs)
    (hrest : NoDigit rest) (hpoint : rest.head? ≠ some '.') :
    readFraction (cs ++ rest) = some (nano, rest) := by
  cases h with
  | none =>
    rw [List.nil_append, readFraction]
    rintro cs rfl
    exact hpoint rfl
  | @point ds hds =>
    have hdigits : (ds ++ rest).takeWhile Char.isDigit = ds :=
      takeWhile_isDigit_append hds.2 hrest
    have hne : ¬(ds.isEmpty = true) := by simpa using hds.1
    rw [List.cons_append, readFraction, hdigits, if_neg hne, List.drop_left]

theorem FractionSpelling.noDigit {nano : Nat} {cs rest : List Char}
    (h : FractionSpelling nano cs) (hrest : NoDigit rest) : NoDigit (cs ++ rest) := by
  cases h with
  | none => exact hrest
  | point => exact noDigit_cons (by decide) _

theorem ClockSpelling.read {n : Nat} {cs : List Char} (h : ClockSpelling n cs)
    (rest : List Char) : readClock (cs ++ rest) = some (n, rest) := by
  cases h with
  | @mk a b c d cs hdigits hcs hminutes hday =>
    simp only [List.forall_mem_cons, List.not_mem_nil, IsEmpty.forall_iff, implies_true,
      and_true] at hdigits
    obtain ⟨ha, hb, hc, hd⟩ := hdigits
    have hcolon : c ≠ ':' := by
      rintro rfl
      cases hc
    have hstop : (c == ':' || isBlank c) = false :=
      Bool.or_eq_false_iff.2 ⟨beq_false_of_ne hcolon, isBlank_of_isDigit hc⟩
    have hdrop : (cs ++ [c, d] ++ rest).dropWhile (fun x ↦ x == ':' || isBlank x) =
        c :: d :: rest := by
      rw [List.append_assoc, List.dropWhile_append_of_pos hcs]
      exact List.dropWhile_cons_of_neg (by simp [hstop])
    simp only [readClock, List.cons_append, readTwoDigits, ha, hb, hc, hd, Bool.and_self, if_true,
      Option.bind_eq_bind, Option.bind_some, hdrop, hminutes, hday, and_self]
    rfl

/-- A letter that is a small u after all is none of the characters that begin other offsets or go on
with the number before it. -/
theorem of_toLower_eq {u : Char} (h : u.toLower = 'u') :
    isBlank u = false ∧ u.isDigit = false ∧ u ∉ ['.', 'Z', 'z', '+', '-', '\u2212'] := by
  refine ⟨Bool.eq_false_iff.2 fun hblank ↦ ?_, Bool.eq_false_iff.2 fun hdigit ↦ ?_, fun hmem ↦ ?_⟩
  · have hall : (blanks.all fun c ↦ c.toLower != 'u') = true := by decide
    have hne := List.all_eq_true.1 hall u (List.contains_iff_mem.1 hblank)
    simp [h] at hne
  · have heq : u.toLower = u := by
      refine dif_neg fun hupper ↦ ?_
      simp only [Char.isDigit] at hdigit
      grind
    rw [← heq, h] at hdigit
    cases hdigit
  · have hall : (['.', 'Z', 'z', '+', '-', '\u2212'].all fun c ↦ c.toLower != 'u') = true := by
      decide
    have hne := List.all_eq_true.1 hall u hmem
    simp [h] at hne

theorem OffsetSpelling.read {offset : Int} {cs : List Char} (h : OffsetSpelling offset cs)
    (rest : List Char) : readOffset (cs ++ rest) = some (offset, rest) := by
  cases h with
  | zulu hbs hz =>
    rw [readOffset, List.append_assoc, trimLeft_append hbs, List.singleton_append]
    rcases hz with rfl | rfl
    · rw [trimLeft_cons (by decide)]
      rfl
    · rw [trimLeft_cons (by decide)]
      rfl
  | @utc bs u t c hbs hutc =>
    obtain ⟨hblank, -, hmem⟩ := of_toLower_eq (List.cons.inj hutc).1
    simp only [List.mem_cons, List.not_mem_nil, or_false, not_or] at hmem
    rw [readOffset, List.append_assoc, trimLeft_append hbs, List.cons_append,
      trimLeft_cons hblank]
    split
    case h_6 =>
      rename_i heq
      cases heq
      exact if_pos hutc
    case h_7 =>
      rename_i hnone
      exact absurd rfl (hnone u t c rest)
    all_goals
      rename_i heq
      simp [(List.cons.inj heq).1] at hmem
  | ahead hbs h =>
    rw [readOffset, List.append_assoc, trimLeft_append hbs, List.cons_append,
      trimLeft_cons (by decide)]
    simp only [h.read rest, Option.map_some]
  | behind hbs hsign h =>
    rw [readOffset, List.append_assoc, trimLeft_append hbs, List.cons_append]
    rcases hsign with rfl | rfl
    · rw [trimLeft_cons (by decide)]
      simp only [h.read rest, Option.map_some]
    · rw [trimLeft_cons (by decide)]
      simp only [h.read rest, Option.map_some]

/-- An offset ends the number before it. -/
theorem OffsetSpelling.ends {offset : Int} {cs : List Char} (h : OffsetSpelling offset cs)
    (rest : List Char) : NoDigit (cs ++ rest) ∧ (cs ++ rest).head? ≠ some '.' := by
  have hends {bs more : List Char} {c : Char} (hbs : Blanks bs) (hc : c.isDigit = false ∧ c ≠ '.') :
      NoDigit (bs ++ c :: more ++ rest) ∧ (bs ++ c :: more ++ rest).head? ≠ some '.' := by
    rw [List.append_assoc, List.cons_append]
    refine ⟨noDigit_append hbs (noDigit_cons hc.1 _), ?_⟩
    cases bs with
    | nil => simpa using hc.2
    | cons b bs =>
      intro hhead
      obtain rfl : b = '.' := by simpa using hhead
      exact absurd (hbs '.' List.mem_cons_self) (by decide)
  cases h with
  | zulu hbs hz => rcases hz with rfl | rfl <;> exact hends hbs (by decide)
  | utc hbs hutc =>
    obtain ⟨-, hdigit, hmem⟩ := of_toLower_eq (List.cons.inj hutc).1
    exact hends hbs ⟨hdigit, fun hpoint ↦ hmem (hpoint ▸ List.mem_cons_self)⟩
  | ahead hbs => exact hends hbs (by decide)
  | behind hbs hsign => rcases hsign with rfl | rfl <;> exact hends hbs (by decide)

theorem readSeparator_cons {separator : Char}
    (h : separator = 'T' ∨ separator = 't' ∨ separator = ' ') (rest : List Char) :
    readSeparator (separator :: rest) = some rest := by
  rcases h with rfl | rfl | rfl <;> rfl

/-- **What is spelled is read** as the instant that has this local time. -/
theorem Spelling.read {here : Instant} {offset : Int} {cs : List Char}
    (h : Spelling here offset cs) : ofChars? cs = here.ofLocal? offset := by
  cases h with
  | @mk year dash month dash' day hour colon minute colon' second fraction ahead bs separator hyear
      hdash hmonth hdash' hday hseparator hhour hcolon hminute hcolon' hsecond hfraction hoffset
      hbs =>
    have hseparated (rest : List Char) : NoDigit (separator :: rest) := by
      rcases hseparator with rfl | rfl | rfl <;> exact noDigit_cons (by decide) _
    have hdate : Date.of? here.date.year here.date.month here.date.day = some here.date :=
      Date.of?_eq_some_iff.2 ⟨rfl, rfl, rfl⟩
    have hhere : of? here.date here.hour here.minute here.second here.nano = some here :=
      of?_eq_some_iff.2 ⟨rfl, rfl, rfl, rfl, rfl⟩
    obtain ⟨hends, hpoint⟩ := hoffset.ends bs
    have htrim : trimLeft bs = [] := trimLeft_eq_nil_iff.2 hbs
    simp only [ofChars?, readDate, hyear.read (hdash.noDigit (by decide) _),
      hdash.read (by decide), hmonth.read (hdash'.noDigit (by decide) _),
      hdash'.read (by decide), hday.read (hseparated _), hdate, readSeparator_cons hseparator,
      hhour.read (hcolon.noDigit (by decide) _), hcolon.read (by decide),
      hminute.read (hcolon'.noDigit (by decide) _), hcolon'.read (by decide),
      hsecond.read (hfraction.noDigit hends), hfraction.read hends hpoint, hoffset.read bs, hhere,
      htrim, Option.bind_eq_bind, Option.bind_some, Option.pure_def, List.isEmpty_nil, if_true]

/-! ## What is read is spelled -/

theorem exists_digits_of_readDigits {width n : Nat} {cs rest : List Char}
    (h : readDigits width cs = some (n, rest)) :
    ∃ ds, AreDigits ds ∧ ds.length ≤ width ∧ Nat.ofDigitChars 10 ds 0 = n ∧ cs = ds ++ rest := by
  rw [readDigits] at h
  split at h
  · cases h
  · rename_i hne
    obtain ⟨rfl, rfl⟩ := Prod.mk.inj (Option.some.inj h)
    have hprefix := (List.takeWhile_prefix Char.isDigit (l := cs.take width)).trans
      (List.take_prefix width cs)
    refine ⟨(cs.take width).takeWhile Char.isDigit, ⟨?_, ?_⟩, ?_, rfl, ?_⟩
    · simpa using hne
    · exact fun c hc ↦ List.all_eq_true.1 List.all_takeWhile c hc
    · exact Nat.le_trans (List.takeWhile_prefix _).length_le (List.length_take_le _ _)
    · exact List.prefix_iff_eq_append.1 hprefix |>.symm

theorem exists_numberSpelling {width n : Nat} {cs rest : List Char}
    (h : readNumber width cs = some (n, rest)) :
    ∃ w, NumberSpelling width n w ∧ cs = w ++ rest := by
  obtain ⟨bs, hbs, hcs⟩ := exists_blanks_append cs
  obtain ⟨ds, hds, hwidth, rfl, htrim⟩ := exists_digits_of_readDigits h
  rw [htrim, ← List.append_assoc] at hcs
  exact ⟨_, .mk hbs hds hwidth, hcs⟩

theorem exists_markSpelling {mark : Char} {cs rest : List Char}
    (h : readMark mark cs = some rest) : ∃ w, MarkSpelling mark w ∧ cs = w ++ rest := by
  obtain ⟨bs, hbs, hcs⟩ := exists_blanks_append cs
  rw [readMark] at h
  split at h
  · cases h
  · rename_i c more htrim
    rw [htrim, List.append_cons] at hcs
    split_ifs at h with hmark
    cases h
    exact ⟨_, .mk hbs, hmark ▸ hcs⟩

theorem exists_yearSpelling {year : Int} {cs rest : List Char}
    (h : readYear cs = some (year, rest)) : ∃ w, YearSpelling year w ∧ cs = w ++ rest := by
  obtain ⟨bs, hbs, hcs⟩ := exists_blanks_append cs
  rw [readYear.eq_def] at h
  split at h
  all_goals
    obtain ⟨⟨n, more⟩, hread, heq⟩ := Option.map_eq_some_iff.1 h
    obtain ⟨rfl, rfl⟩ := Prod.mk.inj heq
    obtain ⟨ds, hds, hwidth, rfl, hdigits⟩ := exists_digits_of_readDigits hread
  case h_1 _ _ htrim =>
    rw [htrim, hdigits, ← List.cons_append, ← List.append_assoc] at hcs
    exact ⟨_, .minus hbs hds, hcs⟩
  case h_2 _ _ htrim =>
    rw [htrim, hdigits, ← List.cons_append, ← List.append_assoc] at hcs
    exact ⟨_, .plus hbs hds, hcs⟩
  case h_3 =>
    rw [hdigits, ← List.append_assoc] at hcs
    exact ⟨_, .bare (.mk hbs hds hwidth), hcs⟩

theorem exists_separator {cs rest : List Char} (h : readSeparator cs = some rest) :
    ∃ separator : Char, (separator = 'T' ∨ separator = 't' ∨ separator = ' ') ∧
      cs = separator :: rest := by
  rw [readSeparator.eq_def] at h
  split at h
  case h_4 => cases h
  all_goals
    cases h
    exact ⟨_, by decide, rfl⟩

theorem exists_fractionSpelling {nano : Nat} {cs rest : List Char}
    (h : readFraction cs = some (nano, rest)) :
    ∃ w, FractionSpelling nano w ∧ cs = w ++ rest := by
  rw [readFraction.eq_def] at h
  split at h
  · rename_i cs
    dsimp only at h
    split_ifs at h with hne
    obtain ⟨rfl, rfl⟩ := Prod.mk.inj (Option.some.inj h)
    have hds : AreDigits (cs.takeWhile Char.isDigit) :=
      ⟨by simpa using hne, fun c hc ↦ List.all_eq_true.1 List.all_takeWhile c hc⟩
    have hsplit := List.prefix_iff_eq_append.1 (List.takeWhile_prefix Char.isDigit (l := cs))
    exact ⟨_, .point hds, congrArg ('.' :: ·) hsplit.symm⟩
  · obtain ⟨rfl, rfl⟩ := Prod.mk.inj (Option.some.inj h)
    exact ⟨_, .none, rfl⟩

theorem exists_twoDigits {n : Nat} {cs rest : List Char} (h : readTwoDigits cs = some (n, rest)) :
    ∃ c d : Char, c.isDigit = true ∧ d.isDigit = true ∧ Nat.ofDigitChars 10 [c, d] 0 = n ∧
      cs = c :: d :: rest := by
  rw [readTwoDigits.eq_def] at h
  split at h
  · split_ifs at h with hdigits
    obtain ⟨rfl, rfl⟩ := Prod.mk.inj (Option.some.inj h)
    obtain ⟨hc, hd⟩ := Bool.and_eq_true_iff.1 hdigits
    exact ⟨_, _, hc, hd, rfl, rfl⟩
  · cases h

theorem exists_clockSpelling {n : Nat} {cs rest : List Char} (h : readClock cs = some (n, rest)) :
    ∃ w, ClockSpelling n w ∧ cs = w ++ rest := by
  simp only [readClock, Option.bind_eq_bind, Option.bind_eq_some_iff, Prod.exists] at h
  obtain ⟨hours, r₁, h₁, minutes, r₂, h₂, h⟩ := h
  split_ifs at h with hrange
  cases h
  obtain ⟨a, b, ha, hb, rfl, rfl⟩ := exists_twoDigits h₁
  obtain ⟨c, d, hc, hd, rfl, hrest⟩ := exists_twoDigits h₂
  have hsplit := List.takeWhile_append_dropWhile (p := fun c ↦ c == ':' || isBlank c) (l := r₁)
  rw [hrest] at hsplit
  have hmarks : ∀ x ∈ r₁.takeWhile fun c ↦ c == ':' || isBlank c, (x == ':' || isBlank x) = true :=
    fun x hx ↦ List.all_eq_true.1 List.all_takeWhile x hx
  refine ⟨_, .mk ?_ hmarks hrange.1 hrange.2, ?_⟩
  · simp [ha, hb, hc, hd]
  · rw [List.cons_append, List.cons_append, List.append_assoc]
    exact congrArg (a :: b :: ·) hsplit.symm

theorem exists_offsetSpelling {offset : Int} {cs rest : List Char}
    (h : readOffset cs = some (offset, rest)) : ∃ w, OffsetSpelling offset w ∧ cs = w ++ rest := by
  obtain ⟨bs, hbs, hcs⟩ := exists_blanks_append cs
  rw [readOffset.eq_def] at h
  split at h
  case h_1 | h_2 =>
    rename_i htrim
    cases h
    rw [htrim, List.append_cons] at hcs
    exact ⟨_, .zulu hbs (by simp), hcs⟩
  case h_6 =>
    rename_i htrim
    split_ifs at h with hutc
    cases h
    rw [htrim] at hcs
    exact ⟨_, .utc hbs hutc, by simpa using hcs⟩
  case h_7 => cases h
  all_goals
    rename_i htrim
    simp only [Option.map_eq_some_iff, Prod.exists, Prod.mk.injEq] at h
    obtain ⟨n, _, hread, rfl, rfl⟩ := h
    obtain ⟨w, hw, hrest⟩ := exists_clockSpelling hread
    rw [htrim, hrest, ← List.cons_append, ← List.append_assoc] at hcs
  · exact ⟨_, .ahead hbs hw, hcs⟩
  · exact ⟨_, .behind hbs (Or.inl rfl) hw, hcs⟩
  · exact ⟨_, .behind hbs (Or.inr rfl) hw, hcs⟩

/-- **What is read is spelled**, by a local time that has the instant. -/
theorem exists_spelling {cs : List Char} {t : Instant} (h : ofChars? cs = some t) :
    ∃ here offset, Spelling here offset cs ∧ here.ofLocal? offset = some t := by
  simp only [ofChars?, readDate, Option.bind_eq_bind, Option.bind_eq_some_iff, Option.pure_def,
    Option.some.injEq, Prod.mk.injEq, Prod.exists] at h
  obtain ⟨date, r₀, ⟨year, r₁, h₁, r₂, h₂, month, r₃, h₃, r₄, h₄, day, r₅, h₅, date', hdate, rfl,
    rfl⟩, r₆, h₆, hour, r₇, h₇, r₈, h₈, minute, r₉, h₉, s₀, h₁₀, second, s₁, h₁₁, nano, s₂, h₁₂,
    offset, s₃, h₁₃, here, hhere, h⟩ := h
  split_ifs at h with hblank
  obtain ⟨year', hyear, rfl⟩ := exists_yearSpelling h₁
  obtain ⟨dash, hdash, rfl⟩ := exists_markSpelling h₂
  obtain ⟨month', hmonth, rfl⟩ := exists_numberSpelling h₃
  obtain ⟨dash', hdash', rfl⟩ := exists_markSpelling h₄
  obtain ⟨day', hday, rfl⟩ := exists_numberSpelling h₅
  obtain ⟨separator, hseparator, rfl⟩ := exists_separator h₆
  obtain ⟨hour', hhour, rfl⟩ := exists_numberSpelling h₇
  obtain ⟨colon, hcolon, rfl⟩ := exists_markSpelling h₈
  obtain ⟨minute', hminute, rfl⟩ := exists_numberSpelling h₉
  obtain ⟨colon', hcolon', rfl⟩ := exists_markSpelling h₁₀
  obtain ⟨second', hsecond, rfl⟩ := exists_numberSpelling h₁₁
  obtain ⟨fraction, hfraction, rfl⟩ := exists_fractionSpelling h₁₂
  obtain ⟨ahead, hoffset, rfl⟩ := exists_offsetSpelling h₁₃
  obtain ⟨rfl, rfl, rfl⟩ := Date.of?_eq_some_iff.1 hdate
  obtain ⟨rfl, rfl, rfl, rfl, rfl⟩ := of?_eq_some_iff.1 hhere
  have hbs : Blanks s₃ := trimLeft_eq_nil_iff.1 (List.isEmpty_iff.1 hblank)
  exact ⟨here, offset, .mk hyear hdash hmonth hdash' hday hseparator hhour hcolon hminute hcolon'
    hsecond hfraction hoffset hbs, h⟩

theorem OffsetSpelling.natAbs_lt {offset : Int} {cs : List Char} (h : OffsetSpelling offset cs) :
    offset.natAbs < 1440 := by
  have hclock {n : Nat} {cs : List Char} (h : ClockSpelling n cs) : n < 1440 := by
    cases h with
    | mk _ _ _ hday => exact hday
  cases h with
  | zulu | utc => decide
  | ahead _ h => simpa using hclock h
  | behind _ _ h => simpa using hclock h

theorem Spelling.natAbs_lt {here : Instant} {offset : Int} {cs : List Char}
    (h : Spelling here offset cs) : offset.natAbs < 1440 := by
  cases h with
  | mk _ _ _ _ _ _ _ _ _ _ _ _ hoffset => exact hoffset.natAbs_lt

end Instant

end LabelAutomaton
