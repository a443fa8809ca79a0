import LabelAutomaton.Json.Numeral

/-!
# Spellings of a number

`Numeral.Spelling n cs` says that the characters `cs` are a way to write the number `n`: a sign if
it is negative, the whole digits, the fraction behind a point and the exponent behind an `e`. Of
these only the exponent leaves a choice.

A number is read as long as it can be. What is read is spelled by what is taken
(`exists_spelling_of_read`), and a spelling is read if what follows does not look like more of it,
which is `EndsNumber` (`Spelling.read`).
-/

set_option autoImplicit false

namespace LabelAutomaton

/-! ## Runs of digits

All readers of numbers take digits from the front as long as there are any, so they stop where a
text does not go on with a digit. -/

/-- The characters do not begin with a digit. -/
def NoDigit (cs : List Char) : Prop := ∀ c ∈ cs.head?, c.isDigit = false

theorem noDigit_nil : NoDigit [] := by
  intro c hc
  simp at hc

theorem noDigit_cons {c : Char} (hc : c.isDigit = false) (cs : List Char) : NoDigit (c :: cs) := by
  intro d hd
  obtain rfl : c = d := by simpa using hd
  exact hc

theorem NoDigit.take {cs : List Char} (h : NoDigit cs) (n : Nat) : NoDigit (cs.take n) := by
  cases n with
  | zero => exact noDigit_nil
  | succ n =>
    cases cs with
    | nil => exact noDigit_nil
    | cons c cs => exact noDigit_cons (h c rfl) _

/-- Digits are taken up to where they end. -/
theorem takeWhile_isDigit_append {ds rest : List Char} (hds : ∀ c ∈ ds, c.isDigit = true)
    (hrest : NoDigit rest) : (ds ++ rest).takeWhile Char.isDigit = ds := by
  rw [List.takeWhile_append_of_pos hds]
  cases rest with
  | nil => simp
  | cons c cs => simp [hrest c rfl]

namespace Json

/-- No number goes on with these characters. -/
def EndsNumber (cs : List Char) : Prop :=
  ∀ c ∈ cs.head?, c.isDigit = false ∧ c ≠ '.' ∧ c ≠ 'e' ∧ c ≠ 'E'

theorem endsNumber_nil : EndsNumber [] := by
  intro c hc
  simp at hc

theorem endsNumber_cons {c : Char} (hc : c.isDigit = false ∧ c ≠ '.' ∧ c ≠ 'e' ∧ c ≠ 'E')
    (cs : List Char) : EndsNumber (c :: cs) := by
  intro d hd
  obtain rfl : c = d := by simpa using hd
  exact hc

theorem EndsNumber.noDigit {cs : List Char} (h : EndsNumber cs) : NoDigit cs :=
  fun c hc ↦ (h c hc).1

namespace Numeral

/-! ## Digits -/

/-- One digit or more. -/
def AreDigits (ds : List Char) : Prop := ds ≠ [] ∧ ∀ c ∈ ds, c.isDigit = true

/-- One digit or more, with no zero in front of others. -/
def AreWhole (ds : List Char) : Prop := AreDigits ds ∧ (ds.head? = some '0' → ds = ['0'])

theorem AreDigits.exists_cons {ds : List Char} (h : AreDigits ds) :
    ∃ c rest, ds = c :: rest ∧ c.isDigit = true := by
  obtain ⟨c, rest, rfl⟩ := List.exists_cons_of_ne_nil h.1
  exact ⟨c, rest, rfl, h.2 c List.mem_cons_self⟩

theorem areDigits_toDigits (n : Nat) : AreDigits (Nat.toDigits 10 n) :=
  ⟨Nat.toDigits_ne_nil, fun _ hc ↦ Nat.isDigit_of_mem_toDigits (by decide) (by decide) hc⟩

/-- Only zero is written with a zero in front. -/
theorem areWhole_toDigits (n : Nat) : AreWhole (Nat.toDigits 10 n) := by
  refine ⟨areDigits_toDigits n, ?_⟩
  induction n using Nat.strongRecOn with
  | ind n ih =>
    rw [Nat.toDigits_eq_if (by decide)]
    split
    · rename_i hlt
      have hsmall : ∀ k < 10, k.digitChar = '0' → k = 0 := by decide
      intro hhead
      obtain rfl := hsmall n hlt (by simpa using hhead)
      rfl
    · have hhead := ih (n / 10) (by omega)
      obtain ⟨c, ds, hds, -⟩ := (areDigits_toDigits (n / 10)).exists_cons
      rw [hds] at hhead ⊢
      intro hzero
      -- no multiple of ten up to `n` has a zero in front
      have hten : Nat.toDigits 10 (n / 10) = ['0'] := by rw [hds, hhead (by simpa using hzero)]
      have hvalue : Nat.ofDigitChars 10 (Nat.toDigits 10 (n / 10)) 0 = n / 10 :=
        Nat.ofDigitChars_ten_toDigits
      rw [hten] at hvalue
      have : (0 : Nat) = n / 10 := hvalue
      omega

theorem readDigits_eq_some_iff {cs ds rest : List Char} :
    readDigits cs = some (ds, rest) ↔ AreDigits ds ∧ NoDigit rest ∧ cs = ds ++ rest := by
  constructor
  · intro h
    rw [readDigits] at h
    split at h
    · cases h
    · rename_i digits hne
      obtain ⟨rfl, rfl⟩ := Prod.mk.inj (Option.some.inj h)
      have hsplit := List.takeWhile_append_dropWhile (p := Char.isDigit) (l := cs)
      have hdrop : cs.drop (cs.takeWhile Char.isDigit).length = cs.dropWhile Char.isDigit :=
        (congrArg (List.drop _) hsplit.symm).trans List.drop_left
      refine ⟨⟨hne, List.all_eq_true.1 List.all_takeWhile⟩, fun c hc ↦ ?_, ?_⟩
      · have hhead := List.head?_dropWhile_not Char.isDigit cs
        rw [hdrop] at hc
        rw [Option.mem_def.1 hc] at hhead
        simpa using hhead
      · rw [hdrop, hsplit]
  · rintro ⟨⟨hne, hds⟩, hrest, rfl⟩
    rw [readDigits, takeWhile_isDigit_append hds hrest]
    split
    · exact absurd rfl hne
    · rw [List.drop_left]

theorem readWhole_eq_some_iff {cs ds rest : List Char} :
    readWhole cs = some (ds, rest) ↔ AreWhole ds ∧ NoDigit rest ∧ cs = ds ++ rest := by
  rw [readWhole]
  split
  · rename_i c ds' rest' hread
    constructor
    · intro h
      cases h
    · rintro ⟨⟨hds, hzero⟩, hrest, hcs⟩
      rw [readDigits_eq_some_iff.2 ⟨hds, hrest, hcs⟩] at hread
      obtain ⟨rfl, -⟩ := Prod.mk.inj (Option.some.inj hread)
      cases hzero rfl
  · rename_i hzero
    rw [readDigits_eq_some_iff, AreWhole, and_assoc]
    refine and_congr_right fun hds ↦ (and_iff_right_of_imp ?_).symm
    rintro ⟨hrest, hcs⟩ hhead
    have hread := readDigits_eq_some_iff.2 ⟨hds, hrest, hcs⟩
    cases ds with
    | nil => cases hhead
    | cons c ds =>
      obtain rfl : c = '0' := by simpa using hhead
      cases ds with
      | nil => rfl
      | cons d ds => exact absurd hread (hzero d ds rest)

/-! ## Spellings -/

/-- The ways to write a fraction. -/
inductive FractionSpelling : List Char → List Char → Prop
  | none : FractionSpelling [] []
  | point {ds : List Char} (h : AreDigits ds) : FractionSpelling ds ('.' :: ds)

/-- The ways to write the number of an exponent. -/
inductive PowerSpelling : Int → List Char → Prop
  | bare {ds : List Char} (h : AreDigits ds) : PowerSpelling (Nat.ofDigitChars 10 ds 0 : Nat) ds
  | plus {ds : List Char} (h : AreDigits ds) :
      PowerSpelling (Nat.ofDigitChars 10 ds 0 : Nat) ('+' :: ds)
  | minus {ds : List Char} (h : AreDigits ds) :
      PowerSpelling (-(Nat.ofDigitChars 10 ds 0 : Nat)) ('-' :: ds)

/-- The ways to write an exponent. -/
inductive ExponentSpelling : Option Int → List Char → Prop
  | none : ExponentSpelling none []
  | power {e : Char} {n : Int} {cs : List Char} (he : e = 'e' ∨ e = 'E')
      (h : PowerSpelling n cs) : ExponentSpelling (some n) (e :: cs)

/-- The ways to write a number. -/
inductive Spelling : Numeral → List Char → Prop
  | mk {negative : Bool} {whole fraction f x : List Char} {exponent : Option Int}
      (hwhole : AreWhole whole) (hfraction : FractionSpelling fraction f)
      (hexponent : ExponentSpelling exponent x) :
      Spelling ⟨negative, whole, fraction, exponent⟩
        ((if negative then ['-'] else []) ++ (whole ++ (f ++ x)))

/-! ## What is read is spelled -/

theorem exists_fractionSpelling {cs ds rest : List Char}
    (h : readFraction cs = some (ds, rest)) : ∃ f, FractionSpelling ds f ∧ cs = f ++ rest := by
  rw [readFraction.eq_def] at h
  split at h
  · obtain ⟨hds, -, rfl⟩ := readDigits_eq_some_iff.1 h
    exact ⟨_, .point hds, rfl⟩
  · obtain ⟨rfl, rfl⟩ := Prod.mk.inj (Option.some.inj h)
    exact ⟨_, .none, rfl⟩

theorem readNat_eq_some_iff {cs rest : List Char} {n : Nat} :
    readNat cs = some (n, rest) ↔
      ∃ ds, AreDigits ds ∧ NoDigit rest ∧ cs = ds ++ rest ∧ Nat.ofDigitChars 10 ds 0 = n := by
  simp only [readNat, Option.map_eq_some_iff, Prod.exists, Prod.mk.injEq, readDigits_eq_some_iff]
  constructor
  · rintro ⟨ds, _, ⟨hds, hrest, hcs⟩, hn, rfl⟩
    exact ⟨ds, hds, hrest, hcs, hn⟩
  · rintro ⟨ds, hds, hrest, hcs, hn⟩
    exact ⟨ds, rest, ⟨hds, hrest, hcs⟩, hn, rfl⟩

theorem exists_powerSpelling {cs rest : List Char} {n : Int}
    (h : readPower cs = some (n, rest)) : ∃ w, PowerSpelling n w ∧ cs = w ++ rest := by
  rw [readPower.eq_def] at h
  split at h
  all_goals
    simp only [Option.map_eq_some_iff, Prod.exists, Prod.mk.injEq, readNat_eq_some_iff] at h
    obtain ⟨_, _, ⟨ds, hds, -, rfl, rfl⟩, rfl, rfl⟩ := h
  · exact ⟨_, .minus hds, rfl⟩
  · exact ⟨_, .plus hds, rfl⟩
  · exact ⟨_, .bare hds, rfl⟩

theorem exists_exponentSpelling {cs rest : List Char} {n : Option Int}
    (h : readExponent cs = some (n, rest)) : ∃ x, ExponentSpelling n x ∧ cs = x ++ rest := by
  rw [readExponent.eq_def] at h
  split at h
  case h_3 =>
    obtain ⟨rfl, rfl⟩ := Prod.mk.inj (Option.some.inj h)
    exact ⟨_, .none, rfl⟩
  all_goals
    simp only [Option.map_eq_some_iff, Prod.exists, Prod.mk.injEq] at h
    obtain ⟨_, _, hpower, rfl, rfl⟩ := h
    obtain ⟨w, hw, rfl⟩ := exists_powerSpelling hpower
    exact ⟨_, .power (by simp) hw, rfl⟩

theorem readSign_eq (cs : List Char) :
    cs = (if (readSign cs).1 then ['-'] else []) ++ (readSign cs).2 := by
  rw [readSign.eq_def]
  split <;> rfl

/-- The number that is read is spelled by what is taken. -/
theorem exists_spelling_of_read {cs rest : List Char} {n : Numeral}
    (h : read cs = some (n, rest)) : ∃ w, Spelling n w ∧ cs = w ++ rest := by
  simp only [read, Option.bind_eq_bind, Option.bind_eq_some_iff, Option.pure_def,
    Option.some.injEq, Prod.mk.injEq, Prod.exists] at h
  obtain ⟨whole, r₁, h₁, fraction, r₂, h₂, exponent, r₃, h₃, rfl, rfl⟩ := h
  obtain ⟨hwhole, -, hr⟩ := readWhole_eq_some_iff.1 h₁
  obtain ⟨f, hf, rfl⟩ := exists_fractionSpelling h₂
  obtain ⟨x, hx, rfl⟩ := exists_exponentSpelling h₃
  refine ⟨_, .mk hwhole hf hx, ?_⟩
  rw [List.append_assoc, List.append_assoc, List.append_assoc, ← hr]
  exact readSign_eq cs

/-! ## What is spelled is read -/

theorem PowerSpelling.read {n : Int} {w rest : List Char} (h : PowerSpelling n w)
    (hrest : NoDigit rest) : readPower (w ++ rest) = some (n, rest) := by
  have hnat {ds : List Char} (hds : AreDigits ds) :
      readNat (ds ++ rest) = some (Nat.ofDigitChars 10 ds 0, rest) :=
    readNat_eq_some_iff.2 ⟨ds, hds, hrest, rfl, rfl⟩
  cases h with
  | minus hds => rw [List.cons_append, readPower, hnat hds]; rfl
  | plus hds => rw [List.cons_append, readPower, hnat hds]; rfl
  | bare hds =>
    obtain ⟨c, ds, rfl, hc⟩ := hds.exists_cons
    rw [readPower, hnat hds]
    · rfl
    all_goals
      rintro cs heq
      obtain ⟨rfl, -⟩ := List.cons.inj heq
      cases hc

theorem ExponentSpelling.read {n : Option Int} {x rest : List Char} (h : ExponentSpelling n x)
    (hrest : EndsNumber rest) : readExponent (x ++ rest) = some (n, rest) := by
  cases h with
  | none =>
    rw [List.nil_append, readExponent]
    · rintro cs rfl
      exact (hrest 'e' rfl).2.2.1 rfl
    · rintro cs rfl
      exact (hrest 'E' rfl).2.2.2 rfl
  | power he hpower =>
    rcases he with rfl | rfl <;>
    · rw [List.cons_append, readExponent, hpower.read hrest.noDigit]
      rfl

/-- An exponent ends the digits before it. -/
theorem ExponentSpelling.noDigit {n : Option Int} {x rest : List Char} (h : ExponentSpelling n x)
    (hrest : EndsNumber rest) : NoDigit (x ++ rest) := by
  cases h with
  | none => exact hrest.noDigit
  | power he hpower => rcases he with rfl | rfl <;> exact noDigit_cons (by decide) _

theorem FractionSpelling.read {ds f x rest : List Char} {n : Option Int}
    (h : FractionSpelling ds f) (hx : ExponentSpelling n x) (hrest : EndsNumber rest) :
    readFraction (f ++ (x ++ rest)) = some (ds, x ++ rest) := by
  cases h with
  | none =>
    rw [List.nil_append, readFraction]
    rintro cs hcs
    cases hx with
    | none => exact (hrest '.' (by rw [← List.nil_append rest, hcs]; rfl)).2.1 rfl
    | power he =>
      obtain ⟨rfl, -⟩ := List.cons.inj hcs
      simp at he
  | point hds =>
    rw [List.cons_append, readFraction]
    exact readDigits_eq_some_iff.2 ⟨hds, hx.noDigit hrest, rfl⟩

/-- A fraction ends the digits before it. -/
theorem FractionSpelling.noDigit {ds f cs : List Char} (h : FractionSpelling ds f)
    (hcs : NoDigit cs) : NoDigit (f ++ cs) := by
  cases h with
  | none => exact hcs
  | point => exact noDigit_cons (by decide) _

/-- **A number that is spelled is read**, up to where it ends. -/
theorem Spelling.read {n : Numeral} {w rest : List Char} (h : Spelling n w)
    (hrest : EndsNumber rest) : Numeral.read (w ++ rest) = some (n, rest) := by
  cases h with
  | @mk negative whole fraction f x exponent hwhole hf hx =>
    have hsign : readSign ((if negative then ['-'] else []) ++ (whole ++ (f ++ x)) ++ rest) =
        (negative, whole ++ (f ++ (x ++ rest))) := by
      rw [List.append_assoc, List.append_assoc, List.append_assoc]
      cases negative with
      | true => rfl
      | false =>
        obtain ⟨c, ds, rfl, hc⟩ := hwhole.1.exists_cons
        refine readSign.eq_2 _ fun cs heq ↦ ?_
        obtain ⟨rfl, -⟩ := List.cons.inj heq
        cases hc
    have hread : readWhole (whole ++ (f ++ (x ++ rest))) = some (whole, f ++ (x ++ rest)) :=
      readWhole_eq_some_iff.2 ⟨hwhole, hf.noDigit (hx.noDigit hrest), rfl⟩
    rw [Numeral.read, hsign]
    simp only [hread, hf.read hx hrest, hx.read hrest, Option.bind_eq_bind, Option.bind_some]
    rfl

/-- A spelling begins with a digit or a minus. -/
theorem Spelling.exists_cons {n : Numeral} {w : List Char} (h : Spelling n w) :
    ∃ c cs, w = c :: cs ∧ (c = '-' ∨ c.isDigit = true) := by
  cases h with
  | @mk negative whole fraction f x exponent hwhole hf hx =>
    cases negative with
    | true => exact ⟨_, _, rfl, .inl rfl⟩
    | false =>
      obtain ⟨c, ds, rfl, hc⟩ := hwhole.1.exists_cons
      exact ⟨_, _, rfl, .inr hc⟩

/-- Natural numbers are written in one of their spellings. -/
theorem spelling_ofNat (n : Nat) : Spelling (ofNat n) (ofNat n).toChars := by
  have hchars : (ofNat n).toChars = [] ++ (Nat.toDigits 10 n ++ ([] ++ [])) := by
    simp [toChars, ofNat]
  rw [hchars]
  exact .mk (areWhole_toDigits n) .none .none

end Numeral

end Json

end LabelAutomaton
