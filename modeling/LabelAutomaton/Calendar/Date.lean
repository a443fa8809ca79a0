/-!
# Dates of the proleptic Gregorian calendar

A `Date` is a year, a month and a day that exist together; the leap rule of the Gregorian calendar
is applied to all years, before 1582 and below zero too. Years run from `Date.firstYear` to
`Date.lastYear`, and a date that would leave this range does not exist.

`Date.dayNumber` counts days from 1 January of the year 1, and `dayNumber_next?` and
`dayNumber_prev?` say that it counts them without a gap.
-/

set_option autoImplicit false

namespace LabelAutomaton

/-- Every fourth year is a leap year, except the centuries that 400 does not divide. -/
def isLeapYear (year : Int) : Bool :=
  year % 4 == 0 && (year % 100 != 0 || year % 400 == 0)

/-- The number of days in a month; there is none in a month that does not exist. -/
def monthLength (year : Int) (month : Nat) : Nat :=
  match month with
  | 1 | 3 | 5 | 7 | 8 | 10 | 12 => 31
  | 4 | 6 | 9 | 11 => 30
  | 2 => if isLeapYear year then 29 else 28
  | _ => 0

/-- The number of days in a year before the given month. -/
def daysBeforeMonth (year : Int) : Nat → Nat
  | 0 => 0
  | month + 1 => daysBeforeMonth year month + monthLength year month

/-- The number of days from the beginning of the year 1 to the beginning of the given year. -/
def daysBeforeYear (year : Int) : Int :=
  365 * (year - 1) + (year - 1) / 4 - (year - 1) / 100 + (year - 1) / 400

theorem daysBeforeYear_succ (year : Int) :
    daysBeforeYear (year + 1) = daysBeforeYear year + (if isLeapYear year then 366 else 365) := by
  cases h : isLeapYear year <;>
    simp only [isLeapYear, Bool.and_eq_true, Bool.and_eq_false_iff, Bool.or_eq_true,
      Bool.or_eq_false_iff, beq_iff_eq, bne_iff_ne, ne_eq, beq_eq_false_iff_ne,
      bne_eq_false_iff_eq] at h <;>
    simp only [daysBeforeYear, if_true, Bool.false_eq_true, if_false] <;>
    omega

/-- The months of a year add up to it. -/
theorem daysBeforeMonth_thirteen (year : Int) :
    daysBeforeMonth year 13 = if isLeapYear year then 366 else 365 := by
  simp only [daysBeforeMonth, monthLength]
  split <;> rfl

/-- A day that exists. -/
structure Date where
  /-- The year; 0 is the year before 1. -/
  year : Int
  /-- The month, January being 1. -/
  month : Nat
  /-- The day of the month, from 1. -/
  day : Nat
  /-- The year lies in the supported range. -/
  year_range : -262143 ≤ year ∧ year ≤ 262142
  /-- The month is one of the twelve. -/
  month_range : 1 ≤ month ∧ month ≤ 12
  /-- The month has that day. -/
  day_range : 1 ≤ day ∧ day ≤ monthLength year month
deriving DecidableEq

namespace Date

/-- The first supported year. -/
def firstYear : Int := -262143

/-- The last supported year. -/
def lastYear : Int := 262142

/-- The date with this year, month and day, if there is one. -/
def of? (year : Int) (month day : Nat) : Option Date :=
  if h : (firstYear ≤ year ∧ year ≤ lastYear) ∧ (1 ≤ month ∧ month ≤ 12) ∧
      (1 ≤ day ∧ day ≤ monthLength year month) then
    some ⟨year, month, day, h.1, h.2.1, h.2.2⟩
  else none

theorem of?_eq_some_iff {year : Int} {month day : Nat} {d : Date} :
    of? year month day = some d ↔ d.year = year ∧ d.month = month ∧ d.day = day := by
  rw [of?]
  split
  · constructor
    · rintro ⟨rfl⟩
      exact ⟨rfl, rfl, rfl⟩
    · rintro ⟨rfl, rfl, rfl⟩
      rfl
  · rename_i h
    constructor
    · simp
    · rintro ⟨rfl, rfl, rfl⟩
      exact absurd ⟨d.year_range, d.month_range, d.day_range⟩ h

/-- The number of the day, 1 January of the year 1 being the first. -/
def dayNumber (d : Date) : Int := daysBeforeYear d.year + daysBeforeMonth d.year d.month + d.day

/-- The day after. -/
def next? (d : Date) : Option Date :=
  if d.day < monthLength d.year d.month then of? d.year d.month (d.day + 1)
  else if d.month < 12 then of? d.year (d.month + 1) 1
  else of? (d.year + 1) 1 1

/-- The day before. -/
def prev? (d : Date) : Option Date :=
  if 1 < d.day then of? d.year d.month (d.day - 1)
  else if 1 < d.month then of? d.year (d.month - 1) (monthLength d.year (d.month - 1))
  else of? (d.year - 1) 12 31

theorem dayNumber_next? {d e : Date} (h : d.next? = some e) : e.dayNumber = d.dayNumber + 1 := by
  have hday := d.day_range
  have hmonth := d.month_range
  rw [next?] at h
  split at h
  · obtain ⟨hy, hm, hd⟩ := of?_eq_some_iff.1 h
    rw [dayNumber, dayNumber, hy, hm, hd]
    omega
  · split at h
    · obtain ⟨hy, hm, hd⟩ := of?_eq_some_iff.1 h
      rw [dayNumber, dayNumber, hy, hm, hd, daysBeforeMonth]
      omega
    · obtain ⟨hy, hm, hd⟩ := of?_eq_some_iff.1 h
      have h12 : d.month = 12 := by omega
      have hyear := daysBeforeMonth_thirteen d.year
      rw [daysBeforeMonth] at hyear
      rw [dayNumber, dayNumber, hy, hm, hd, daysBeforeYear_succ, h12]
      rw [h12] at hday
      rename_i hfull _
      rw [h12] at hfull
      simp only [daysBeforeMonth, monthLength] at *
      split <;> simp_all <;> omega

theorem dayNumber_prev? {d e : Date} (h : d.prev? = some e) : e.dayNumber = d.dayNumber - 1 := by
  have hday := d.day_range
  have hmonth := d.month_range
  rw [prev?] at h
  split at h
  · obtain ⟨hy, hm, hd⟩ := of?_eq_some_iff.1 h
    rw [dayNumber, dayNumber, hy, hm, hd]
    omega
  · split at h
    · obtain ⟨hy, hm, hd⟩ := of?_eq_some_iff.1 h
      obtain ⟨m, hm'⟩ : ∃ m, d.month = m + 1 := ⟨d.month - 1, by omega⟩
      rw [dayNumber, dayNumber, hy, hm, hd, hm', daysBeforeMonth]
      simp only [Nat.add_sub_cancel]
      omega
    · obtain ⟨hy, hm, hd⟩ := of?_eq_some_iff.1 h
      have h1 : d.month = 1 := by omega
      have hyear := daysBeforeMonth_thirteen (d.year - 1)
      have hsucc := daysBeforeYear_succ (d.year - 1)
      rw [daysBeforeMonth] at hyear
      rw [Int.sub_add_cancel] at hsucc
      rw [dayNumber, dayNumber, hy, hm, hd, h1, hsucc]
      simp only [daysBeforeMonth, monthLength] at *
      split <;> simp_all <;> omega

end Date

end LabelAutomaton
