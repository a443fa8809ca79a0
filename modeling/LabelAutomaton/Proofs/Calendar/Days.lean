import LabelAutomaton.Calendar.Date

/-!
# Days in a row

Day numbers count the days of the supported years without a gap: a date is told by its number
(`Date.dayNumber_injective`), and the day after and the day before are those with the next number
and the one before (`Date.next?_eq_some_iff`, `Date.prev?_eq_some_iff`). Only the first day has none
before it and only the last none after it.
-/

set_option autoImplicit false

namespace LabelAutomaton

/-! ## Years and months -/

theorem daysBeforeYear_le {year year' : Int} (h : year ≤ year') :
    daysBeforeYear year ≤ daysBeforeYear year' := by
  rw [daysBeforeYear, daysBeforeYear]
  omega

theorem daysBeforeMonth_le (year : Int) {month month' : Nat} (h : month ≤ month') :
    daysBeforeMonth year month ≤ daysBeforeMonth year month' := by
  induction h with
  | refl => exact Nat.le_refl _
  | step _ ih => exact Nat.le_trans ih (Nat.le_add_right _ _)

/-! ## Day numbers -/

namespace Date

/-- The number of the day within its year, from 1. -/
def dayOfYear (d : Date) : Nat := daysBeforeMonth d.year d.month + d.day

theorem dayNumber_eq (d : Date) : d.dayNumber = daysBeforeYear d.year + d.dayOfYear := by
  rw [dayNumber, dayOfYear]
  omega

theorem dayOfYear_le (d : Date) : d.dayOfYear ≤ daysBeforeMonth d.year (d.month + 1) :=
  Nat.add_le_add_left d.day_range.2 _

/-- The days of a year lie between those of its neighbours. -/
theorem dayNumber_mem_year (d : Date) :
    daysBeforeYear d.year < d.dayNumber ∧ d.dayNumber ≤ daysBeforeYear (d.year + 1) := by
  have hday : 1 ≤ d.dayOfYear := Nat.le_trans d.day_range.1 (Nat.le_add_left _ _)
  have hle : d.dayOfYear ≤ daysBeforeMonth d.year 13 :=
    Nat.le_trans d.dayOfYear_le (daysBeforeMonth_le d.year (Nat.succ_le_succ d.month_range.2))
  rw [daysBeforeMonth_thirteen] at hle
  rw [dayNumber_eq, daysBeforeYear_succ]
  cases hleap : isLeapYear d.year <;>
    simp only [hleap, if_true, Bool.false_eq_true, if_false] at * <;> omega

theorem dayNumber_lt_of_year_lt {d e : Date} (h : d.year < e.year) :
    d.dayNumber < e.dayNumber :=
  Int.lt_of_le_of_lt (Int.le_trans d.dayNumber_mem_year.2 (daysBeforeYear_le h))
    e.dayNumber_mem_year.1

theorem dayOfYear_lt_of_month_lt {d e : Date} (hyear : d.year = e.year) (h : d.month < e.month) :
    d.dayOfYear < e.dayOfYear := by
  have hle := Nat.le_trans d.dayOfYear_le (daysBeforeMonth_le d.year h)
  have hday := e.day_range.1
  rw [hyear] at hle
  rw [dayOfYear, dayOfYear] at *
  omega

/-- A day is told by its number. -/
theorem dayNumber_injective {d e : Date} (h : d.dayNumber = e.dayNumber) : d = e := by
  have hyear : d.year = e.year := by
    rcases Int.lt_trichotomy d.year e.year with hlt | heq | hlt
    · exact absurd h (Int.ne_of_lt (dayNumber_lt_of_year_lt hlt))
    · exact heq
    · exact absurd h.symm (Int.ne_of_lt (dayNumber_lt_of_year_lt hlt))
  have hday : d.dayOfYear = e.dayOfYear := by
    rw [dayNumber_eq, dayNumber_eq, hyear] at h
    omega
  have hmonth : d.month = e.month := by
    rcases Nat.lt_trichotomy d.month e.month with hlt | heq | hlt
    · exact absurd hday (Nat.ne_of_lt (dayOfYear_lt_of_month_lt hyear hlt))
    · exact heq
    · exact absurd hday.symm (Nat.ne_of_lt (dayOfYear_lt_of_month_lt hyear.symm hlt))
  rw [dayOfYear, dayOfYear, hyear, hmonth, Nat.add_left_cancel_iff] at hday
  cases d
  cases e
  simp only at hyear hmonth hday
  subst hyear hmonth hday
  rfl

/-- Where the numbers of the supported days begin and end. -/
theorem dayNumber_range (d : Date) :
    daysBeforeYear firstYear + 1 ≤ d.dayNumber ∧ d.dayNumber ≤ daysBeforeYear (lastYear + 1) := by
  obtain ⟨hlow, hhigh⟩ := d.dayNumber_mem_year
  exact ⟨Int.add_one_le_of_lt (Int.lt_of_le_of_lt (daysBeforeYear_le d.year_range.1) hlow),
    Int.le_trans hhigh (daysBeforeYear_le (Int.add_le_add_right d.year_range.2 1))⟩

/-! ## The next day and the one before -/

theorem of?_ne_none {year : Int} {month day : Nat} (hyear : firstYear ≤ year ∧ year ≤ lastYear)
    (hmonth : 1 ≤ month ∧ month ≤ 12) (hday : 1 ≤ day ∧ day ≤ monthLength year month) :
    of? year month day ≠ none := by
  rw [of?, dif_pos ⟨hyear, hmonth, hday⟩]
  exact Option.some_ne_none _

theorem one_le_monthLength {year : Int} {month : Nat} (h : 1 ≤ month ∧ month ≤ 12) :
    1 ≤ monthLength year month := by
  rw [monthLength.eq_def]
  split <;> grind

/-- Only the last supported day has none after it. -/
theorem dayNumber_of_next?_eq_none {d : Date} (h : d.next? = none) :
    d.dayNumber = daysBeforeYear (lastYear + 1) := by
  have hday := d.day_range
  have hmonth := d.month_range
  rw [next?] at h
  split at h
  · exact absurd h (of?_ne_none d.year_range hmonth (by omega))
  · split at h
    · have hnext : 1 ≤ d.month + 1 ∧ d.month + 1 ≤ 12 := by omega
      exact absurd h (of?_ne_none d.year_range hnext ⟨Nat.le_refl 1, one_le_monthLength hnext⟩)
    · have hyear : d.year = lastYear := by
        have hrange := d.year_range
        have hnot : ¬(firstYear ≤ d.year + 1 ∧ d.year + 1 ≤ lastYear) :=
          fun hle ↦ of?_ne_none hle (by decide) (by decide : 1 ≤ 1 ∧ 1 ≤ 31) h
        rw [firstYear, lastYear] at *
        omega
      have h12 : d.month = 12 := by omega
      have hfull : d.day = monthLength d.year 12 := by
        rw [← h12]
        omega
      have hthirteen := daysBeforeMonth_thirteen d.year
      rw [daysBeforeMonth, ← hfull] at hthirteen
      rw [dayNumber_eq, dayOfYear, h12, hthirteen, ← hyear, daysBeforeYear_succ]
      split <;> rfl

/-- Only the first supported day has none before it. -/
theorem dayNumber_of_prev?_eq_none {d : Date} (h : d.prev? = none) :
    d.dayNumber = daysBeforeYear firstYear + 1 := by
  have hday := d.day_range
  have hmonth := d.month_range
  rw [prev?] at h
  split at h
  · exact absurd h (of?_ne_none d.year_range hmonth (by omega))
  · split at h
    · have hprev : 1 ≤ d.month - 1 ∧ d.month - 1 ≤ 12 := by omega
      exact absurd h (of?_ne_none d.year_range hprev ⟨one_le_monthLength hprev, Nat.le_refl _⟩)
    · have hyear : d.year = firstYear := by
        have hrange := d.year_range
        have hnot : ¬(firstYear ≤ d.year - 1 ∧ d.year - 1 ≤ lastYear) :=
          fun hle ↦ of?_ne_none hle (by decide) (by decide : 1 ≤ 31 ∧ 31 ≤ 31) h
        rw [firstYear, lastYear] at *
        omega
      have h1 : d.month = 1 := by omega
      have hfirst : d.day = 1 := by omega
      rw [dayNumber_eq, dayOfYear, h1, hfirst, hyear]
      rfl

/-- **The next day is the one with the next number.** -/
theorem next?_eq_some_iff {d e : Date} : d.next? = some e ↔ e.dayNumber = d.dayNumber + 1 := by
  constructor
  · exact dayNumber_next?
  · intro h
    cases hnext : d.next? with
    | none =>
      have hlast := dayNumber_of_next?_eq_none hnext
      have hrange := e.dayNumber_range.2
      omega
    | some f => rw [dayNumber_injective ((dayNumber_next? hnext).trans h.symm)]

/-- **The day before is the one with the number before.** -/
theorem prev?_eq_some_iff {d e : Date} : d.prev? = some e ↔ e.dayNumber = d.dayNumber - 1 := by
  constructor
  · exact dayNumber_prev?
  · intro h
    cases hprev : d.prev? with
    | none =>
      have hfirst := dayNumber_of_prev?_eq_none hprev
      have hrange := e.dayNumber_range.1
      omega
    | some f => rw [dayNumber_injective ((dayNumber_prev? hprev).trans h.symm)]

end Date

end LabelAutomaton
