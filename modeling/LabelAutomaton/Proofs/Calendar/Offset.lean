import LabelAutomaton.Proofs.Calendar.Clock
import LabelAutomaton.Proofs.Calendar.Spelling

/-!
# Local times

An instant has another minute where the clocks are ahead, but the same second and fraction
(`Instant.ofLocal?_eq_some_iff`). So a timestamp is read as the instant whose minute comes `offset`
minutes before the one it spells (`Instant.ofText?_eq_some_iff`), and it does not matter with which
offset an instant is written (`Instant.SameInstant.ofText?_eq`).
-/

set_option autoImplicit false

namespace LabelAutomaton

namespace Instant

/-- The number of the minute, counted from the beginning of the year 1. -/
def minuteNumber (t : Instant) : Int := t.date.dayNumber * 1440 + t.hour * 60 + t.minute

/-- **An instant has another minute in a local time**, and the same second and fraction. There is
one for every local time, unless its day is not supported. -/
theorem ofLocal?_eq_some_iff {here t : Instant} {offset : Int} (h : offset.natAbs < 1440) :
    here.ofLocal? offset = some t ↔ t.minuteNumber = here.minuteNumber - offset ∧
      t.second = here.second ∧ t.nano = here.nano := by
  have hhour := here.hour_range
  have hminute := here.minute_range
  have hdate (date : Date) :
      (if (here.hour * 60 + here.minute - offset : Int) < 0 then here.date.prev?
        else if (1440 : Int) ≤ here.hour * 60 + here.minute - offset then here.date.next?
        else some here.date) = some date ↔
      date.dayNumber = here.date.dayNumber + (here.hour * 60 + here.minute - offset) / 1440 := by
    split_ifs
    · rw [Date.prev?_eq_some_iff]
      omega
    · rw [Date.next?_eq_some_iff]
      omega
    · constructor
      · rintro ⟨rfl⟩
        omega
      · intro hday
        rw [Date.dayNumber_injective (d := date) (e := here.date) (by omega)]
  simp only [ofLocal?, Option.bind_eq_some_iff, hdate, of?_eq_some_iff, minuteNumber]
  constructor
  · rintro ⟨date, hday, rfl, h₁, h₂, h₃, h₄⟩
    exact ⟨by omega, h₃, h₄⟩
  · rintro ⟨hminutes, h₃, h₄⟩
    have hhour' := t.hour_range
    have hminute' := t.minute_range
    exact ⟨t.date, by omega, rfl, by omega, by omega, h₃, h₄⟩

/-- **A timestamp is read just if it spells a local time** whose instant lies in the supported
years. -/
theorem ofText?_eq_some_iff {text : String} {t : Instant} :
    ofText? text = some t ↔ ∃ here offset, Spelling here offset text.toList ∧
      t.minuteNumber = here.minuteNumber - offset ∧ t.second = here.second ∧
      t.nano = here.nano := by
  constructor
  · intro h
    obtain ⟨here, offset, hspelling, hlocal⟩ := exists_spelling h
    exact ⟨here, offset, hspelling, (ofLocal?_eq_some_iff hspelling.natAbs_lt).1 hlocal⟩
  · rintro ⟨here, offset, hspelling, hinstant⟩
    rw [ofText?, hspelling.read]
    exact (ofLocal?_eq_some_iff hspelling.natAbs_lt).2 hinstant

/-- A leap second that the offset carries into another day. -/
example : (ofText? "2000-02-28 23:59:60.5 -00:01").map toText = some "2000-02-29T00:00:60.500Z" :=
  rfl

/-- The texts write one instant, each with an offset of its own. -/
def SameInstant (text other : String) : Prop :=
  ∃ here offset here' offset', Spelling here offset text.toList ∧
    Spelling here' offset' other.toList ∧
    here.minuteNumber - offset = here'.minuteNumber - offset' ∧ here.second = here'.second ∧
    here.nano = here'.nano

theorem SameInstant.symm {text other : String} (h : SameInstant text other) :
    SameInstant other text := by
  obtain ⟨here, offset, here', offset', h, h', hminute, hsecond, hnano⟩ := h
  exact ⟨here', offset', here, offset, h', h, hminute.symm, hsecond.symm, hnano.symm⟩

/-- Texts that are read as one instant write it. -/
theorem sameInstant_of_ofText?_eq {text other : String} {t : Instant}
    (h : ofText? text = some t) (h' : ofText? other = some t) : SameInstant text other := by
  obtain ⟨here, offset, hspelling, hminute, hsecond, hnano⟩ := ofText?_eq_some_iff.1 h
  obtain ⟨here', offset', hspelling', hminute', hsecond', hnano'⟩ := ofText?_eq_some_iff.1 h'
  exact ⟨here, offset, here', offset', hspelling, hspelling', hminute.symm.trans hminute',
    hsecond.symm.trans hsecond', hnano.symm.trans hnano'⟩

/-- **The offset does not matter** to the instant that is read, nor to whether one is. -/
theorem SameInstant.ofText?_eq {text other : String} (h : SameInstant text other) :
    ofText? text = ofText? other := by
  obtain ⟨here, offset, here', offset', h, h', hminute, hsecond, hnano⟩ := h
  ext t
  rw [ofText?, ofText?, h.read, h'.read, ofLocal?_eq_some_iff h.natAbs_lt,
    ofLocal?_eq_some_iff h'.natAbs_lt, hminute, hsecond, hnano]

end Instant

end LabelAutomaton
