import LabelAutomaton.Calendar.Date

/-!
# Instants

An `Instant` is a day and a time of that day, in coordinated universal time, with nanoseconds. The
second may be 60, which is how a leap second is kept.

`Instant.nanosecondsSince` is the signed distance of two instants, and `Instant.elapsed?` the
distance where it is not negative. Away from leap seconds the distance is the difference of the
two instants' positions on one line (`nanosecondsSince_eq_sub`).
-/

set_option autoImplicit false

namespace LabelAutomaton

/-- The number of nanoseconds in a second. -/
def nanosPerSecond : Nat := 1000000000

/-- A moment in coordinated universal time. -/
structure Instant where
  /-- The day. -/
  date : Date
  /-- The hour, from 0 to 23. -/
  hour : Nat
  /-- The minute, from 0 to 59. -/
  minute : Nat
  /-- The second, from 0 to 59, or 60 in a leap second. -/
  second : Nat
  /-- The nanoseconds within the second. -/
  nano : Nat
  /-- The hour exists. -/
  hour_range : hour < 24
  /-- The minute exists. -/
  minute_range : minute < 60
  /-- The second exists. -/
  second_range : second ≤ 60
  /-- The nanoseconds make less than a second. -/
  nano_range : nano < 1000000000
deriving DecidableEq

namespace Instant

/-- The instant with this day and time, if there is one. -/
def of? (date : Date) (hour minute second nano : Nat) : Option Instant :=
  if h : hour < 24 ∧ minute < 60 ∧ second ≤ 60 ∧ nano < 1000000000 then
    some ⟨date, hour, minute, second, nano, h.1, h.2.1, h.2.2.1, h.2.2.2⟩
  else none

theorem of?_eq_some_iff {date : Date} {hour minute second nano : Nat} {t : Instant} :
    of? date hour minute second nano = some t ↔
      t.date = date ∧ t.hour = hour ∧ t.minute = minute ∧ t.second = second ∧ t.nano = nano := by
  rw [of?]
  split
  · constructor
    · rintro ⟨rfl⟩
      exact ⟨rfl, rfl, rfl, rfl, rfl⟩
    · rintro ⟨rfl, rfl, rfl, rfl, rfl⟩
      rfl
  · rename_i h
    constructor
    · simp
    · rintro ⟨rfl, rfl, rfl, rfl, rfl⟩
      exact absurd ⟨t.hour_range, t.minute_range, t.second_range, t.nano_range⟩ h

/-- The beginning of the year 1. -/
instance : Inhabited Instant where
  default :=
    ⟨⟨1, 1, 1, by decide, by decide, by decide⟩, 0, 0, 0, 0, by decide, by decide, by decide,
      by decide⟩

/-- Whether the instant lies in a leap second. -/
def isLeap (t : Instant) : Bool := t.second == 60

/-- The number of whole seconds before the instant in its day. A leap second has the number of
the second it prolongs. -/
def secondOfDay (t : Instant) : Nat := t.hour * 3600 + t.minute * 60 + min t.second 59

/-- The nanoseconds since the second began; a leap second makes them a second more. -/
def fraction (t : Instant) : Nat := t.nano + if t.isLeap then nanosPerSecond else 0

/-- The instant that has this local time at a place whose clocks are `offset` minutes ahead.
There is none when the day leaves the supported years. -/
def ofLocal? (t : Instant) (offset : Int) : Option Instant :=
  let minutes : Int := t.hour * 60 + t.minute - offset
  let within := (minutes % 1440).toNat
  let date? :=
    if minutes < 0 then t.date.prev? else if 1440 ≤ minutes then t.date.next? else some t.date
  date?.bind fun date ↦ of? date (within / 60) (within % 60) t.second t.nano

/-! ## The distance of two instants -/

/-- The leap seconds that lie between two instants of the same day number: one when the clock
passes the leap second in which one of them stands. -/
def leapBetween (later earlier : Instant) : Int :=
  if earlier.secondOfDay < later.secondOfDay then if earlier.isLeap then 1 else 0
  else if later.secondOfDay < earlier.secondOfDay then if later.isLeap then -1 else 0
  else 0

/-- The nanoseconds from `earlier` to `later`, negative when they come in the other order. -/
def nanosecondsSince (later earlier : Instant) : Int :=
  ((later.date.dayNumber - earlier.date.dayNumber) * 86400
      + (later.secondOfDay - earlier.secondOfDay) + leapBetween later earlier) * nanosPerSecond
    + (later.fraction - earlier.fraction)

/-- The nanoseconds from the beginning of the year 1 to the instant, leap seconds not counted. -/
def position (t : Instant) : Int :=
  (t.date.dayNumber * 86400 + t.secondOfDay) * nanosPerSecond + t.nano

theorem nanosecondsSince_eq_sub {later earlier : Instant} (h : later.isLeap = false)
    (h' : earlier.isLeap = false) :
    later.nanosecondsSince earlier = later.position - earlier.position := by
  have hleap : leapBetween later earlier = 0 := by simp [leapBetween, h, h']
  have h₁ : later.fraction = later.nano := by simp [fraction, h]
  have h₂ : earlier.fraction = earlier.nano := by simp [fraction, h']
  rw [nanosecondsSince, hleap, h₁, h₂, position, position]
  simp only [Int.sub_mul, Int.add_mul]
  omega

end Instant

/-- A span of time, in whole seconds and the nanoseconds that are left over. -/
structure Duration where
  /-- The whole seconds. -/
  seconds : Nat
  /-- The nanoseconds beside them. -/
  nanos : Nat
  /-- They make less than a second. -/
  nanos_range : nanos < 1000000000
deriving DecidableEq

/-- The span of this many nanoseconds. -/
def Duration.ofNanos (n : Nat) : Duration :=
  ⟨n / nanosPerSecond, n % nanosPerSecond, Nat.mod_lt n (by decide)⟩

theorem Duration.seconds_nanos_ofNanos (n : Nat) :
    (Duration.ofNanos n).seconds * nanosPerSecond + (Duration.ofNanos n).nanos = n :=
  Nat.div_add_mod' n nanosPerSecond

/-- The time from `earlier` to `later`, unless they come in the other order. -/
def Instant.elapsed? (later earlier : Instant) : Option Duration :=
  match later.nanosecondsSince earlier with
  | .ofNat n => some (Duration.ofNanos n)
  | .negSucc _ => none

end LabelAutomaton
