import LabelAutomaton.Proofs.History.Grammar

/-!
# How long a run took

The duration of a history is the time from its first step to its last, as a clock measures it that
ticks through the calendar (`History.elapsed?_eq_some_iff`). There is none just if there is no step
or the last step comes before the first (`History.elapsed?_eq_none_iff`); the steps between them
have no influence.

In a document the steps may have been written at places with different clocks. `History.Shifted v w`
says that nothing else tells the values apart: each instant is written with an offset of its own.
Such values write the same history (`History.Shifted.written`), and so the same duration.

All of it is put together in `History.duration_is_exact`.
-/

set_option autoImplicit false

namespace LabelAutomaton

open Json

/-! ## The duration -/

namespace History

variable {h : History}

/-- The times of the first step and of the last. -/
def ends (h : History) : Option (Instant × Instant) :=
  h.steps.head?.bind fun first ↦ h.steps.getLast?.map fun last ↦ (first.time, last.time)

/-- Neither the first step nor the last falls into a leap second. -/
def EndsOutsideLeap (h : History) : Prop :=
  ∀ e ∈ h.ends, e.1.isLeap = false ∧ e.2.isLeap = false

theorem ends_eq_none_iff : h.ends = none ↔ h.steps = [] := by
  rw [ends]
  cases hsteps : h.steps with
  | nil => simp
  | cons first rest => simp [List.getLast?_cons]

theorem elapsed?_eq (h : History) : h.elapsed? = h.ends.bind fun e ↦ e.2.elapsed? e.1 := by
  rw [elapsed?, ends]
  cases h.steps.head? with
  | none => rfl
  | some first => cases h.steps.getLast? <;> rfl

/-- **The duration is the time from the first step to the last.** -/
theorem elapsed?_eq_some_iff (hleap : h.EndsOutsideLeap) {d : Duration} :
    h.elapsed? = some d ↔
      ∃ e ∈ h.ends, Instant.Ticks e.1 (d.seconds * nanosPerSecond + d.nanos) e.2 := by
  rw [elapsed?_eq, Option.bind_eq_some_iff]
  refine exists_congr fun e ↦ and_congr_right fun he ↦ ?_
  exact Instant.elapsed?_eq_some_iff (hleap e he).2 (hleap e he).1

/-- **There is no duration** just if there is no step or time ran backwards. -/
theorem elapsed?_eq_none_iff (hleap : h.EndsOutsideLeap) :
    h.elapsed? = none ↔ h.steps = [] ∨ ∃ e ∈ h.ends, Instant.Before e.2 e.1 := by
  rw [elapsed?_eq, ← ends_eq_none_iff]
  cases hends : h.ends with
  | none => simp
  | some e =>
    obtain ⟨hfirst, hlast⟩ := hleap e hends
    simp [Instant.elapsed?_eq_none_iff hlast hfirst]

end History

/-! ## Other offsets -/

/-- The values are texts of one instant. -/
def Instant.Shifted (v w : Value) : Prop :=
  ∃ text other, v = .ofString text ∧ w = .ofString other ∧ SameInstant text other

theorem Instant.Shifted.symm {v w : Value} (h : Shifted v w) : Shifted w v := by
  obtain ⟨text, other, hv, hw, hsame⟩ := h
  exact ⟨other, text, hw, hv, hsame.symm⟩

theorem Instant.Shifted.written {v w : Value} {t : Instant} (h : Shifted v w)
    (hv : Written v t) : Written w t := by
  obtain ⟨text, other, rfl, rfl, hsame⟩ := h
  obtain ⟨text', heq, ht⟩ := hv
  cases heq
  exact ⟨other, rfl, hsame.ofText?_eq ▸ ht⟩

/-- The values hold the same under the names of the fields, but that the instant is written with an
offset of its own. -/
def Step.Shifted (v w : Value) : Prop :=
  ∃ ms ns, Record.Form ["from", "label", "to", "timestamp"] v ms ∧
    Record.Form ["from", "label", "to", "timestamp"] w ns ∧
    (∀ name ∈ ["from", "label", "to"], Record.valuesOf ms name = Record.valuesOf ns name) ∧
    List.Forall₂ Instant.Shifted (Record.valuesOf ms "timestamp") (Record.valuesOf ns "timestamp")

theorem Step.Shifted.symm {v w : Value} (h : Shifted v w) : Shifted w v := by
  obtain ⟨ms, ns, hv, hw, hvalues, htimes⟩ := h
  exact ⟨ns, ms, hw, hv, fun name hname ↦ (hvalues name hname).symm,
    (htimes.imp fun _ _ ↦ Instant.Shifted.symm).flip⟩

theorem Step.Shifted.written {v w : Value} {s : Step} (h : Shifted v w) (hv : Written v s) :
    Written w s := by
  obtain ⟨ms, ns, hform, hform', hvalues, htimes⟩ := h
  obtain ⟨ms', hms', hsource, hlabel, htarget, htime⟩ := hv
  obtain rfl := hform.unique hms'
  simp only [List.forall_mem_cons, List.not_mem_nil, IsEmpty.forall_iff, implies_true,
    and_true] at hvalues
  obtain ⟨h₁, h₂, h₃⟩ := hvalues
  exact ⟨ns, hform', hsource.of_eq h₁, hlabel.of_eq h₂, htarget.of_eq h₃,
    htime.of_forall₂ htimes fun _ _ ↦ Instant.Shifted.written⟩

namespace History

/-- The values hold the same limit and the same steps, but that their instants are written with
offsets of their own. -/
def Shifted (v w : Value) : Prop := AlikeBy Step.Shifted v w

theorem Shifted.symm {v w : Value} (h : Shifted v w) : Shifted w v :=
  AlikeBy.symm h fun _ _ ↦ Step.Shifted.symm

/-- **The offsets do not matter** to the history that is written. -/
theorem Shifted.written {v w : Value} {h : History} (hvw : Shifted v w) (hv : Written v h) :
    Written w h :=
  AlikeBy.written hvw (fun _ _ _ ↦ Step.Shifted.written) hv

theorem ofJson_eq_ok_iff_of_spelling {text : String} {v : Value} {h : History}
    (hv : v.Spelling text) : ofJson text = .ok h ↔ Written v h := by
  rw [ofJson, Document.read_of_spelling ofValue hv]
  exact reads_ofValue v h

/-! ## Exact durations -/

/-- **Durations are exact.** Away from leap seconds, a history has no duration just if it has no
step or its last step comes before its first; else its seconds and nanoseconds are the ticks of the
clock from the first step to the last. Nothing but the times of these two matters, and no two
instants are too far apart. A timestamp is read as the instant whose minute comes `offset` minutes
before the local time that it spells; documents that differ only in such offsets are read alike. -/
theorem duration_is_exact :
    (∀ h : History, h.EndsOutsideLeap →
      (h.elapsed? = none ↔ h.steps = [] ∨ ∃ e ∈ h.ends, Instant.Before e.2 e.1) ∧
      ∀ d, h.elapsed? = some d ↔ d.nanos < nanosPerSecond ∧
        ∃ e ∈ h.ends, Instant.Ticks e.1 (d.seconds * nanosPerSecond + d.nanos) e.2) ∧
    (∀ later earlier : Instant,
      (later.nanosecondsSince earlier).natAbs ≤ Instant.longestSpan) ∧
    (∀ h h' : History, h.ends = h'.ends → h.elapsed? = h'.elapsed?) ∧
    (∀ text t, Instant.ofText? text = some t ↔ ∃ here offset,
      Instant.Spelling here offset text.toList ∧
        t.minuteNumber = here.minuteNumber - offset ∧ t.second = here.second ∧
        t.nano = here.nano) ∧
    ∀ (text other : String) (v w : Value), v.Spelling text → w.Spelling other → Shifted v w →
      (∀ h, ofJson text = .ok h ↔ ofJson other = .ok h) ∧
      ∀ h h', ofJson text = .ok h → ofJson other = .ok h' → h = h' ∧ h.elapsed? = h'.elapsed? := by
  refine ⟨fun h hleap ↦ ⟨elapsed?_eq_none_iff hleap, fun d ↦ ?_⟩,
    Instant.natAbs_nanosecondsSince_le, fun h h' hends ↦ ?_, fun _ _ ↦ Instant.ofText?_eq_some_iff,
    fun text other v w hv hw hshifted ↦ ?_⟩
  · rw [elapsed?_eq_some_iff hleap]
    exact (and_iff_right d.nanos_range).symm
  · rw [elapsed?_eq, elapsed?_eq, hends]
  · have halike (h : History) : ofJson text = .ok h ↔ ofJson other = .ok h := by
      rw [ofJson_eq_ok_iff_of_spelling hv, ofJson_eq_ok_iff_of_spelling hw]
      exact ⟨hshifted.written, hshifted.symm.written⟩
    refine ⟨halike, fun h h' hread hread' ↦ ?_⟩
    obtain rfl : h = h' := Except.ok.inj (((halike h).1 hread).symm.trans hread')
    exact ⟨rfl, rfl⟩

/-- From the first supported instant to the last, by way of one between them. -/
def longest : History :=
  ⟨[⟨"a", "x", "b", (Instant.ofText? "-262143-01-01T00:00:00Z").get (by decide +kernel)⟩,
    ⟨"b", "x", "a", default⟩,
    ⟨"a", "x", "b",
      (Instant.ofText? "+262142-12-31T23:59:59.999999999Z").get (by decide +kernel)⟩], none⟩

/-- The evening of a leap day. -/
def leapEvening : Instant := (Instant.ofText? "2000-02-29T23:30:00Z").get (by decide +kernel)

/-- A single step, before midnight on a leap day. -/
def leapDay : History := ⟨[⟨"a", "x", "b", leapEvening⟩], none⟩

/-- The same step, by clocks that are ahead. -/
def nextMorning : Value :=
  .ofMembers [
    ("steps", .ofList [.ofMembers [("from", .ofString "a"), ("label", .ofString "x"),
      ("to", .ofString "b"), ("timestamp", .ofString "2000-3-1 5:15:00.0 +05:45")]]),
    ("limit", .null)]

theorem plain_nextMorning : nextMorning.Plain := by
  refine .members ?_
  simp only [List.forall_mem_cons, List.not_mem_nil, IsEmpty.forall_iff, implies_true, and_true]
  refine ⟨.list (List.forall_mem_singleton.2 (.members ?_)), .null⟩
  simp only [List.forall_mem_cons, List.not_mem_nil, IsEmpty.forall_iff, implies_true, and_true]
  exact ⟨.string _, .string _, .string _, .string _⟩

theorem shifted_nextMorning : Shifted leapDay.toValue nextMorning := by
  have hsame : Instant.SameInstant leapEvening.toText "2000-3-1 5:15:00.0 +05:45" :=
    Instant.sameInstant_of_ofText?_eq leapEvening.ofText?_toText (by decide +kernel)
  have hstep : Step.Shifted (Step.toValue ⟨"a", "x", "b", leapEvening⟩)
      (.ofMembers [("from", .ofString "a"), ("label", .ofString "x"), ("to", .ofString "b"),
        ("timestamp", .ofString "2000-3-1 5:15:00.0 +05:45")]) := by
    refine ⟨_, _, .object (by simp), .object (by simp), ?_, .cons ⟨_, _, rfl, rfl, hsame⟩ .nil⟩
    simp only [List.forall_mem_cons, List.not_mem_nil, IsEmpty.forall_iff, implies_true, and_true]
    exact ⟨rfl, rfl, rfl⟩
  refine ⟨_, _, .object (by simp), .object (by simp), ?_, rfl⟩
  exact .cons ⟨_, _, rfl, rfl, .cons hstep .nil⟩ .nil

/-- The longest duration of all, and a step that is read alike in two documents. -/
theorem duration_is_exact_longest :
    longest.EndsOutsideLeap ∧ longest.elapsed? = some ⟨16544868105599, 999999999, by decide⟩ ∧
      (∃ e ∈ longest.ends,
        Instant.Ticks e.1 (16544868105599 * nanosPerSecond + 999999999) e.2) ∧
      ofJson leapDay.toJson = .ok leapDay ∧ ofJson nextMorning.toText = .ok leapDay := by
  have hleap : longest.EndsOutsideLeap := by
    intro e he
    cases he
    decide +kernel
  have helapsed : longest.elapsed? = some ⟨16544868105599, 999999999, by decide⟩ := by
    decide +kernel
  have hticks := ((duration_is_exact.1 longest hleap).2 _).1 helapsed
  have hread : ofJson leapDay.toJson = .ok leapDay :=
    (ofJson_eq_ok_iff_of_spelling leapDay.plain_toValue.spelling).2 leapDay.written_toValue
  have halike := duration_is_exact.2.2.2.2 leapDay.toJson nextMorning.toText leapDay.toValue
    nextMorning leapDay.plain_toValue.spelling plain_nextMorning.spelling shifted_nextMorning
  exact ⟨hleap, helapsed, hticks.2, hread, (halike.1 leapDay).1 hread⟩

end History

end LabelAutomaton
