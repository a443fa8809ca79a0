import LabelAutomaton.Calendar.Instant
import LabelAutomaton.Proofs.Calendar.Days
import Mathlib.Tactic.ByContra
import Mathlib.Tactic.SplitIfs

/-!
# The clock

`Instant.next?` is a clock that knows of the calendar and nothing of positions: a nanosecond later
one of its hands moves on, and those below go back to zero. `Instant.Ticks a n b` says that it shows
`b` when it has ticked `n` times from `a`. Positions count its ticks (`Instant.ticks_iff`).

So the time between two instants is the number of ticks from the one to the other
(`Instant.elapsed?_eq_some_iff`), and there is none just if they come in the other order
(`Instant.elapsed?_eq_none_iff`). It is never too long for a machine word
(`Instant.natAbs_nanosecondsSince_le`).
-/

set_option autoImplicit false

namespace LabelAutomaton

namespace Instant

/-! ## Ticks -/

theorem of?_ne_none {hour minute second nano : Nat} (date : Date)
    (h : hour < 24 ∧ minute < 60 ∧ second ≤ 60 ∧ nano < 1000000000) :
    of? date hour minute second nano ≠ none := by
  rw [of?, dif_pos h]
  exact Option.some_ne_none _

theorem isLeap_eq_false_iff {t : Instant} : t.isLeap = false ↔ t.second ≤ 59 := by
  have hsecond := t.second_range
  rw [isLeap, beq_eq_false_iff_ne]
  omega

/-- A nanosecond later, by a clock without leap seconds. -/
def next? (t : Instant) : Option Instant :=
  if t.nano < 999999999 then of? t.date t.hour t.minute t.second (t.nano + 1)
  else if t.second < 59 then of? t.date t.hour t.minute (t.second + 1) 0
  else if t.minute < 59 then of? t.date t.hour (t.minute + 1) 0 0
  else if t.hour < 23 then of? t.date (t.hour + 1) 0 0 0
  else t.date.next?.bind fun date ↦ of? date 0 0 0 0

/-- The clock shows `b` when it has ticked `n` times from `a`. -/
inductive Ticks : Instant → Nat → Instant → Prop
  /-- Before the first tick it shows `a`. -/
  | zero (a : Instant) : Ticks a 0 a
  /-- The first tick, and then the others. -/
  | succ {a b c : Instant} {n : Nat} (hfirst : a.next? = some b) (hrest : Ticks b n c) :
      Ticks a (n + 1) c

/-- Away from leap seconds, instants are told by their positions. -/
theorem position_injective {t u : Instant} (ht : t.isLeap = false) (hu : u.isLeap = false)
    (h : t.position = u.position) : t = u := by
  rw [isLeap_eq_false_iff] at ht hu
  obtain ⟨date, hour, minute, second, nano, hhour, hminute, hsecond, hnano⟩ := t
  obtain ⟨date', hour', minute', second', nano', hhour', hminute', hsecond', hnano'⟩ := u
  simp only [position, secondOfDay, nanosPerSecond] at *
  obtain rfl : date = date' := Date.dayNumber_injective (by omega)
  obtain rfl : hour = hour' := by omega
  obtain rfl : minute = minute' := by omega
  obtain rfl : second = second' := by omega
  obtain rfl : nano = nano' := by omega
  rfl

/-- A tick moves the position on by one. -/
theorem position_next? {t u : Instant} (ht : t.isLeap = false) (h : t.next? = some u) :
    u.isLeap = false ∧ u.position = t.position + 1 := by
  have hhour := t.hour_range
  have hminute := t.minute_range
  have hnano := t.nano_range
  rw [isLeap_eq_false_iff] at ht ⊢
  rw [next?] at h
  simp only [position, secondOfDay, nanosPerSecond]
  split_ifs at h
  case neg =>
    obtain ⟨date, hdate, h⟩ := Option.bind_eq_some_iff.1 h
    have hnext := Date.dayNumber_next? hdate
    obtain ⟨h₁, h₂, h₃, h₄, h₅⟩ := of?_eq_some_iff.1 h
    rw [h₁, h₂, h₃, h₄, h₅]
    omega
  all_goals
    obtain ⟨h₁, h₂, h₃, h₄, h₅⟩ := of?_eq_some_iff.1 h
    rw [h₁, h₂, h₃, h₄, h₅]
    omega

/-- A clock that cannot go on shows the last instant. -/
theorem position_le_of_next?_eq_none {t u : Instant} (ht : t.isLeap = false)
    (hu : u.isLeap = false) (h : t.next? = none) : u.position ≤ t.position := by
  have hhour := t.hour_range
  have hminute := t.minute_range
  have hnano := t.nano_range
  rw [isLeap_eq_false_iff] at ht hu
  rw [next?] at h
  split_ifs at h
  case neg =>
    have hdate : t.date.next? = none := by
      by_contra hne
      obtain ⟨date, hdate⟩ := Option.ne_none_iff_exists'.1 hne
      rw [hdate, Option.bind_some] at h
      exact of?_ne_none date (by omega) h
    have hlast := Date.dayNumber_of_next?_eq_none hdate
    have hrange := u.date.dayNumber_range.2
    have huhour := u.hour_range
    have huminute := u.minute_range
    have hunano := u.nano_range
    simp only [position, secondOfDay, nanosPerSecond]
    omega
  all_goals exact absurd h (of?_ne_none _ (by omega))

/-- **Positions count ticks.** -/
theorem ticks_iff {a b : Instant} {n : Nat} (ha : a.isLeap = false) :
    Ticks a n b ↔ b.isLeap = false ∧ b.position = a.position + n := by
  constructor
  · intro h
    induction h with
    | zero => exact ⟨ha, (Int.add_zero _).symm⟩
    | succ hfirst _ ih =>
      obtain ⟨hleap, hposition⟩ := position_next? ha hfirst
      obtain ⟨hb, heq⟩ := ih hleap
      exact ⟨hb, by omega⟩
  · rintro ⟨hb, h⟩
    induction n generalizing a with
    | zero =>
      obtain rfl := position_injective ha hb (by omega)
      exact .zero a
    | succ n ih =>
      cases hnext : a.next? with
      | none =>
        have hle := position_le_of_next?_eq_none ha hb hnext
        omega
      | some c =>
        obtain ⟨hc, hposition⟩ := position_next? ha hnext
        exact .succ hnext (ih hc (by omega))

/-! ## Spans -/

/-- The clock shows `b` some time after `a`. -/
def Before (a b : Instant) : Prop := ∃ n, Ticks a (n + 1) b

theorem before_iff {a b : Instant} (ha : a.isLeap = false) (hb : b.isLeap = false) :
    Before a b ↔ a.position < b.position := by
  simp only [Before, ticks_iff ha, hb, true_and]
  constructor
  · rintro ⟨n, h⟩
    omega
  · intro h
    exact ⟨(b.position - a.position - 1).toNat, by omega⟩

end Instant

theorem Duration.ofNanos_eq_iff {n : Nat} {d : Duration} :
    Duration.ofNanos n = d ↔ n = d.seconds * nanosPerSecond + d.nanos := by
  constructor
  · rintro rfl
    exact (seconds_nanos_ofNanos n).symm
  · rintro rfl
    obtain ⟨seconds, nanos, hnanos⟩ := d
    simp only [ofNanos, nanosPerSecond, mk.injEq]
    omega

namespace Instant

variable {later earlier : Instant}

/-- **The time between two instants is the number of ticks** from the one to the other. -/
theorem elapsed?_eq_some_iff (hlater : later.isLeap = false) (hearlier : earlier.isLeap = false)
    {d : Duration} :
    later.elapsed? earlier = some d ↔
      Ticks earlier (d.seconds * nanosPerSecond + d.nanos) later := by
  -- an equation for `elapsed?` is slow to make: it would evaluate the distance
  delta elapsed?
  rw [nanosecondsSince_eq_sub hlater hearlier, ticks_iff hearlier]
  simp only [hlater, true_and]
  split
  · rename_i n hn
    rw [Option.some.injEq, Duration.ofNanos_eq_iff, ← Int.sub_eq_iff_eq_add', hn]
    exact Int.ofNat_inj.symm
  · rename_i n hn
    simp only [reduceCtorEq, false_iff]
    omega

/-- There is no time between them just if they come in the other order. -/
theorem elapsed?_eq_none_iff (hlater : later.isLeap = false) (hearlier : earlier.isLeap = false) :
    later.elapsed? earlier = none ↔ Before later earlier := by
  delta elapsed?
  rw [nanosecondsSince_eq_sub hlater hearlier, before_iff hlater hearlier]
  split
  · rename_i n hn
    rw [Int.ofNat_eq_natCast] at hn
    simp only [reduceCtorEq, false_iff]
    omega
  · rename_i n hn
    simp only [true_iff]
    omega

/-- The most nanoseconds that a span may have: those of as many milliseconds as a signed word of 64
bits can hold. -/
def longestSpan : Nat := (UInt64.size / 2 - 1) * 1000000

theorem secondOfDay_lt (t : Instant) : t.secondOfDay < 86400 := by
  have hhour := t.hour_range
  have hminute := t.minute_range
  rw [secondOfDay]
  omega

theorem fraction_lt (t : Instant) : t.fraction < 2 * nanosPerSecond := by
  have hnano := t.nano_range
  simp only [fraction, nanosPerSecond]
  split <;> omega

theorem natAbs_leapBetween_le (later earlier : Instant) :
    (leapBetween later earlier).natAbs ≤ 1 := by
  rw [leapBetween]
  split_ifs <;> decide

/-- **No two instants are too far apart.** -/
theorem natAbs_nanosecondsSince_le (later earlier : Instant) :
    (later.nanosecondsSince earlier).natAbs ≤ longestSpan := by
  have hfirst : daysBeforeYear Date.firstYear = -95746130 := by decide
  have hlast : daysBeforeYear (Date.lastYear + 1) = 95745399 := by decide
  have hdays := later.date.dayNumber_range
  have hdays' := earlier.date.dayNumber_range
  have hseconds := later.secondOfDay_lt
  have hseconds' := earlier.secondOfDay_lt
  have hfraction := later.fraction_lt
  have hfraction' := earlier.fraction_lt
  have hleap := natAbs_leapBetween_le later earlier
  have hspan : longestSpan = 9223372036854775807000000 := by decide
  simp only [nanosecondsSince, nanosPerSecond, hspan] at *
  omega

end Instant

end LabelAutomaton
