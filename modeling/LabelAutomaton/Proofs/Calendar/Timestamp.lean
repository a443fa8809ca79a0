import LabelAutomaton.Proofs.Calendar.Offset

/-!
# Timestamps are read back

`Instant.ofText?` reads many more texts than `Instant.toText` writes. Here it is shown that what is
written is one of the spellings of the instant, in universal time (`Instant.spelling_toChars`); so
it is read as the instant it was written for (`Instant.ofText?_toText`).
-/

set_option autoImplicit false

namespace LabelAutomaton.Instant

/-! ## Numbers of a fixed width -/

theorem isDigit_of_mem_padded {width n : Nat} {c : Char} (h : c ∈ padded width n) :
    c.isDigit = true := by
  rw [padded, List.leftpad, List.mem_append] at h
  rcases h with h | h
  · rw [List.eq_of_mem_replicate h]
    decide
  · exact Nat.isDigit_of_mem_toDigits (by decide) (by decide) h

theorem padded_ne_nil (width n : Nat) : padded width n ≠ [] := by
  simp [padded, List.leftpad]

theorem length_padded {width n : Nat} (hwidth : 0 < width) (h : n < Nat.pow 10 width) :
    (padded width n).length = width := by
  have hle : (Nat.toDigits 10 n).length ≤ width :=
    (Nat.length_toDigits_le_iff (by decide) hwidth).2 h
  rw [padded, List.length_leftpad]
  omega

/-- Zeros in front do not change a number. -/
theorem ofDigitChars_padded (width n : Nat) : Nat.ofDigitChars 10 (padded width n) 0 = n := by
  rw [padded, List.leftpad, Nat.ofDigitChars_append, Nat.ofDigitChars_replicate_zero,
    Nat.mul_zero, Nat.ofDigitChars_ten_toDigits]

theorem areDigits_padded (width n : Nat) : Json.Numeral.AreDigits (padded width n) :=
  ⟨padded_ne_nil width n, fun _ hc ↦ isDigit_of_mem_padded hc⟩

theorem blanks_nil : Blanks [] := fun _ hc ↦ absurd hc List.not_mem_nil

theorem numberSpelling_padded {width n : Nat} (hwidth : 0 < width) (h : n < Nat.pow 10 width) :
    NumberSpelling width n (padded width n) := by
  have hspelling := NumberSpelling.mk blanks_nil (areDigits_padded width n)
    (Nat.le_of_eq (length_padded hwidth h))
  rwa [ofDigitChars_padded] at hspelling

/-! ## The parts of a timestamp -/

/-- Years of four digits have no sign, and the others have theirs. -/
theorem yearSpelling_yearText (year : Int) : YearSpelling year (yearText year) := by
  have hdigits := areDigits_padded 4 year.natAbs
  rw [yearText]
  split_ifs with hrange hneg
  · have h4 : year.natAbs < Nat.pow 10 4 := by
      have : Nat.pow 10 4 = 10000 := by decide
      omega
    have hspelling := YearSpelling.bare (numberSpelling_padded (by decide) h4)
    rwa [Int.natAbs_of_nonneg hrange.1] at hspelling
  · have hspelling := YearSpelling.minus blanks_nil hdigits
    rwa [ofDigitChars_padded, Int.ofNat_natAbs_of_nonpos (Int.le_of_lt hneg), Int.neg_neg]
      at hspelling
  · have hspelling := YearSpelling.plus blanks_nil hdigits
    rwa [ofDigitChars_padded, Int.natAbs_of_nonneg (Int.not_lt.1 hneg)] at hspelling

/-- A fraction of up to nine digits is scaled to nanoseconds. -/
theorem fractionSpelling_padded {width n : Nat} (hwidth : 0 < width) (hnine : width ≤ 9)
    (h : n < Nat.pow 10 width) :
    FractionSpelling (n * Nat.pow 10 (9 - width)) ('.' :: padded width n) := by
  have hlength := length_padded hwidth h
  have hspelling := FractionSpelling.point (areDigits_padded width n)
  rwa [List.take_of_length_le (by omega), ofDigitChars_padded, hlength] at hspelling

theorem fractionSpelling_fractionText {nano : Nat} (h : nano < 1000000000) :
    FractionSpelling nano (fractionText nano) := by
  have h3 : Nat.pow 10 3 = 1000 := by decide
  have h6 : Nat.pow 10 6 = 1000000 := by decide
  have h9 : Nat.pow 10 9 = 1000000000 := by decide
  rw [fractionText]
  split_ifs with hzero hmilli hmicro
  · rw [hzero]
    exact .none
  · have hlt : nano / 1000000 < Nat.pow 10 3 := by omega
    have hspelling := fractionSpelling_padded (by decide) (by decide) hlt
    rwa [show 9 - 3 = 6 from rfl, h6, Nat.div_mul_cancel (Nat.dvd_of_mod_eq_zero hmilli)]
      at hspelling
  · have hlt : nano / 1000 < Nat.pow 10 6 := by omega
    have hspelling := fractionSpelling_padded (by decide) (by decide) hlt
    rwa [show 9 - 6 = 3 from rfl, h3, Nat.div_mul_cancel (Nat.dvd_of_mod_eq_zero hmicro)]
      at hspelling
  · have hlt : nano < Nat.pow 10 9 := by omega
    have hspelling := fractionSpelling_padded (by decide) (by decide) hlt
    rwa [show nano * Nat.pow 10 (9 - 9) = nano from Nat.mul_one nano] at hspelling

/-! ## Whole timestamps -/

theorem day_lt_hundred (d : Date) : d.day < Nat.pow 10 2 := by
  have hlength : monthLength d.year d.month ≤ 31 := by
    rw [monthLength.eq_def]
    split <;> first | omega | (split <;> omega)
  exact Nat.lt_of_le_of_lt (Nat.le_trans d.day_range.2 hlength) (by decide)

/-- **What is written is a spelling** of the instant in universal time. -/
theorem spelling_toChars (t : Instant) : Spelling t 0 t.toChars := by
  have hmonth : t.date.month < Nat.pow 10 2 := Nat.lt_of_le_of_lt t.date.month_range.2 (by decide)
  have hhour : t.hour < Nat.pow 10 2 := Nat.lt_of_lt_of_le t.hour_range (by decide)
  have hminute : t.minute < Nat.pow 10 2 := Nat.lt_of_lt_of_le t.minute_range (by decide)
  have hsecond : t.second < Nat.pow 10 2 := Nat.lt_of_le_of_lt t.second_range (by decide)
  have hspelling := Spelling.mk (yearSpelling_yearText t.date.year) (.mk blanks_nil)
    (numberSpelling_padded (Nat.succ_pos 1) hmonth) (.mk blanks_nil)
    (numberSpelling_padded (Nat.succ_pos 1) (day_lt_hundred t.date)) (Or.inl rfl)
    (numberSpelling_padded (Nat.succ_pos 1) hhour) (.mk blanks_nil)
    (numberSpelling_padded (Nat.succ_pos 1) hminute) (.mk blanks_nil)
    (numberSpelling_padded (Nat.succ_pos 1) hsecond) (fractionSpelling_fractionText t.nano_range)
    (.zulu blanks_nil (Or.inl rfl)) blanks_nil
  simpa [toChars] using hspelling

/-- **What is written is read back.** -/
theorem ofText?_toText (t : Instant) : ofText? t.toText = some t := by
  refine ofText?_eq_some_iff.2 ⟨t, 0, ?_, (Int.sub_zero _).symm, rfl, rfl⟩
  rw [toText, String.toList_ofList]
  exact t.spelling_toChars

end LabelAutomaton.Instant
