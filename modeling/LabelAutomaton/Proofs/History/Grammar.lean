import LabelAutomaton.History.Json
import LabelAutomaton.Proofs.Calendar.Timestamp
import LabelAutomaton.Proofs.Json.Reader

/-!
# Which values write a step or a history

`Step.Written v s` and `History.Written v h` say which values write a step or a history: records in
which each field occurs once and holds what its type asks for, except that a history may leave out
its limit. They are what the readers read (`Step.reads_ofValue`, `History.reads_ofValue`).

Values are `Alike` when nothing but the order of members, further members, a limit that is left
out, or the choice between an object and an array tells them apart. Alike values write the same
(`History.Alike.written`).
-/

set_option autoImplicit false

namespace LabelAutomaton

open Json

namespace Instant

/-- The value is a text of the instant. -/
def Written (v : Value) (t : Instant) : Prop :=
  ∃ text, v = .ofString text ∧ ofText? text = some t

theorem reads_ofValue : Reader.Reads ofValue Written := by
  intro v t
  rw [ofValue, bind_eq_ok_iff]
  constructor
  · rintro ⟨text, htext, h⟩
    refine ⟨text, (reads_string v text).1 htext, ?_⟩
    cases hinstant : ofText? text with
    | none =>
      rw [hinstant] at h
      cases h
    | some u =>
      rw [hinstant] at h
      cases h
      rfl
  · rintro ⟨text, rfl, ht⟩
    refine ⟨text, rfl, ?_⟩
    rw [ht]
    rfl

/-- An instant is written by its own text. -/
theorem written_toValue (t : Instant) : Written t.toValue t := ⟨t.toText, rfl, ofText?_toText t⟩

theorem isWhole_ofValue : Reader.IsWhole ofValue := by
  intro v t h
  obtain ⟨text, rfl, -⟩ := (reads_ofValue v t).1 h
  rfl

end Instant

/-! ## Steps -/

namespace Step

/-- The value writes the step. -/
def Written (v : Value) (s : Step) : Prop :=
  ∃ ms, Record.Form ["from", "label", "to", "timestamp"] v ms ∧
    Record.Once ms "from" (· = .ofString s.source) ∧
    Record.Once ms "label" (· = .ofString s.label) ∧
    Record.Once ms "to" (· = .ofString s.target) ∧
    Record.Once ms "timestamp" (Instant.Written · s.time)

/-- The values hold the same under the names of the fields. -/
def Alike (v w : Value) : Prop :=
  ∃ ms ns, Record.Form ["from", "label", "to", "timestamp"] v ms ∧
    Record.Form ["from", "label", "to", "timestamp"] w ns ∧
    ∀ name ∈ ["from", "label", "to", "timestamp"],
      Record.valuesOf ms name = Record.valuesOf ns name

theorem reads_ofValue : Reader.Reads ofValue Written := by
  intro v s
  rw [ofValue, Record.members_bind_eq_ok_iff (by decide)]
  refine exists_congr fun ms ↦ and_congr_right fun _ ↦ ?_
  simp only [fields, List.forall_mem_cons, List.not_mem_nil, IsEmpty.forall_iff, implies_true,
    and_true, bind_eq_ok_iff]
  constructor
  · rintro ⟨⟨h₁, h₂, h₃, h₄⟩, source, hsource, label, hlabel, target, htarget, time, htime, h⟩
    cases h
    exact ⟨(Record.required_iff reads_string).1 ⟨h₁, hsource⟩,
      (Record.required_iff reads_string).1 ⟨h₂, hlabel⟩,
      (Record.required_iff reads_string).1 ⟨h₃, htarget⟩,
      (Record.required_iff Instant.reads_ofValue).1 ⟨h₄, htime⟩⟩
  · rintro ⟨hsource, hlabel, htarget, htime⟩
    obtain ⟨h₁, hsource⟩ := (Record.required_iff reads_string).2 hsource
    obtain ⟨h₂, hlabel⟩ := (Record.required_iff reads_string).2 hlabel
    obtain ⟨h₃, htarget⟩ := (Record.required_iff reads_string).2 htarget
    obtain ⟨h₄, htime⟩ := (Record.required_iff Instant.reads_ofValue).2 htime
    exact ⟨⟨h₁, h₂, h₃, h₄⟩, _, hsource, _, hlabel, _, htarget, _, htime, rfl⟩

theorem isWhole_ofValue : Reader.IsWhole ofValue := by
  refine Record.isWhole_members_bind (by decide) ?_ _
  simp only [fields, List.forall_mem_cons, List.not_mem_nil, IsEmpty.forall_iff, implies_true,
    and_true]
  exact ⟨Record.isWhole_of isWhole_string, Record.isWhole_of isWhole_string,
    Record.isWhole_of isWhole_string, Record.isWhole_of Instant.isWhole_ofValue⟩

/-- A step may be written as an array. -/
theorem written_ofList_iff {items : List Value} {s : Step} (h : items.length = 4) :
    Written (.ofList items) s ↔
      Written (.ofMembers (["from", "label", "to", "timestamp"].zip items)) s :=
  exists_congr fun _ ↦ and_congr_left fun _ ↦ Record.form_ofList_iff h

/-- A step is written by its own value. -/
theorem written_toValue (s : Step) : Written s.toValue s :=
  ⟨_, .object (by simp), ⟨_, rfl, rfl⟩, ⟨_, rfl, rfl⟩, ⟨_, rfl, rfl⟩,
    ⟨_, rfl, s.time.written_toValue⟩⟩

theorem plain_toValue (s : Step) : s.toValue.Plain := by
  refine .members ?_
  simp only [List.forall_mem_cons, List.not_mem_nil, IsEmpty.forall_iff, implies_true, and_true]
  exact ⟨.string _, .string _, .string _, .string _⟩

theorem Alike.symm {v w : Value} (h : Alike v w) : Alike w v := by
  obtain ⟨ms, ns, hv, hw, hvalues⟩ := h
  exact ⟨ns, ms, hw, hv, fun name hname ↦ (hvalues name hname).symm⟩

theorem Alike.written {v w : Value} {s : Step} (h : Alike v w) (hv : Written v s) :
    Written w s := by
  obtain ⟨ms, ns, hform, hform', hvalues⟩ := h
  obtain ⟨ms', hms', hsource, hlabel, htarget, htime⟩ := hv
  obtain rfl := hform.unique hms'
  simp only [List.forall_mem_cons, List.not_mem_nil, IsEmpty.forall_iff, implies_true,
    and_true] at hvalues
  obtain ⟨h₁, h₂, h₃, h₄⟩ := hvalues
  exact ⟨ns, hform', hsource.of_eq h₁, hlabel.of_eq h₂, htarget.of_eq h₃, htime.of_eq h₄⟩

end Step

/-! ## Histories -/

namespace History

/-- The value writes the limit. -/
def LimitWritten (v : Value) (limit : Option UInt64) : Prop :=
  v = .null ∧ limit = none ∨ ∃ n : UInt64, v.IsNat n.toNat ∧ some n = limit

/-- The value writes the history. A limit that is left out is none, as `null` is. -/
def Written (v : Value) (h : History) : Prop :=
  ∃ ms, Record.Form ["steps", "limit"] v ms ∧
    Record.Once ms "steps" (Value.Lists Step.Written · h.steps) ∧
    Record.OnceOrNull ms "limit" (LimitWritten · h.limit)

/-- The values hold related steps and the same limit. -/
def AlikeBy (R : Value → Value → Prop) (v w : Value) : Prop :=
  ∃ ms ns, Record.Form ["steps", "limit"] v ms ∧ Record.Form ["steps", "limit"] w ns ∧
    List.Forall₂ (Value.BothList R) (Record.valuesOf ms "steps") (Record.valuesOf ns "steps") ∧
    Record.orNull (Record.valuesOf ms "limit") = Record.orNull (Record.valuesOf ns "limit")

/-- The values hold alike steps and the same limit. -/
def Alike (v w : Value) : Prop := AlikeBy Step.Alike v w

theorem reads_limit : (readNullable readWord64).Reads LimitWritten := by
  refine reads_nullable reads_word64 fun n h ↦ ?_
  obtain ⟨digits, hdigits, -⟩ := h
  cases hdigits

theorem reads_ofValue : Reader.Reads ofValue Written := by
  intro v h
  rw [ofValue, Record.members_bind_eq_ok_iff (by decide)]
  refine exists_congr fun ms ↦ and_congr_right fun _ ↦ ?_
  simp only [fields, List.forall_mem_cons, List.not_mem_nil, IsEmpty.forall_iff, implies_true,
    and_true, bind_eq_ok_iff]
  have hsteps := reads_list Step.reads_ofValue
  constructor
  · rintro ⟨⟨h₁, h₂⟩, steps, hread, limit, hlimit, heq⟩
    cases heq
    exact ⟨(Record.required_iff hsteps).1 ⟨h₁, hread⟩,
      (Record.optional_iff reads_limit rfl).1 ⟨h₂, hlimit⟩⟩
  · rintro ⟨hread, hlimit⟩
    obtain ⟨h₁, hread⟩ := (Record.required_iff hsteps).2 hread
    obtain ⟨h₂, hlimit⟩ := (Record.optional_iff reads_limit rfl).2 hlimit
    exact ⟨⟨h₁, h₂⟩, _, hread, _, hlimit, rfl⟩

theorem isWhole_ofValue : Reader.IsWhole ofValue := by
  refine Record.isWhole_members_bind (by decide) ?_ _
  simp only [fields, List.forall_mem_cons, List.not_mem_nil, IsEmpty.forall_iff, implies_true,
    and_true]
  exact ⟨Record.isWhole_of (isWhole_list Step.isWhole_ofValue),
    Record.isWhole_of (isWhole_nullable ((isWhole_nat _).map _))⟩

/-- A history may be written as an array, but then with its limit. -/
theorem written_ofList_iff {items : List Value} {h : History} (hlength : items.length = 2) :
    Written (.ofList items) h ↔ Written (.ofMembers (["steps", "limit"].zip items)) h :=
  exists_congr fun _ ↦ and_congr_left fun _ ↦ Record.form_ofList_iff hlength

/-- A history is written by its own value. -/
theorem written_toValue (h : History) : Written h.toValue h := by
  refine ⟨_, .object (by simp), ⟨_, rfl, h.steps.map Step.toValue, rfl, ?_⟩, ⟨_, rfl, ?_⟩⟩
  · rw [List.forall₂_map_left_iff, List.forall₂_same]
    exact fun s _ ↦ s.written_toValue
  · cases h.limit with
    | none => exact .inl ⟨rfl, rfl⟩
    | some limit => exact .inr ⟨limit, Value.isNat_ofNat _, rfl⟩

theorem plain_toValue (h : History) : h.toValue.Plain := by
  refine .members ?_
  simp only [List.forall_mem_cons, List.not_mem_nil, IsEmpty.forall_iff, implies_true, and_true]
  refine ⟨.list (List.forall_mem_map.2 fun s _ ↦ s.plain_toValue), ?_⟩
  cases h.limit with
  | none => exact .null
  | some limit => exact .nat _

section AlikeBy

variable {R : Value → Value → Prop} {v w : Value}

theorem AlikeBy.symm (h : AlikeBy R v w) (hsymm : ∀ v w, R v w → R w v) : AlikeBy R w v := by
  obtain ⟨ms, ns, hv, hw, hsteps, hlimit⟩ := h
  exact ⟨ns, ms, hw, hv, (hsteps.imp fun _ _ hvw ↦ hvw.symm hsymm).flip, hlimit.symm⟩

/-- Values write the same history, if related values write the same step. -/
theorem AlikeBy.written {h : History} (hvw : AlikeBy R v w)
    (hrel : ∀ v w s, R v w → Step.Written v s → Step.Written w s) (hv : Written v h) :
    Written w h := by
  obtain ⟨ms, ns, hform, hform', hsteps, hlimit⟩ := hvw
  obtain ⟨ms', hms', hread, hreadLimit⟩ := hv
  obtain rfl := hform.unique hms'
  exact ⟨ns, hform', hread.of_forall₂ hsteps fun v w hlist ↦ hlist.lists hrel,
    hreadLimit.of_eq hlimit⟩

end AlikeBy

theorem Alike.symm {v w : Value} (h : Alike v w) : Alike w v :=
  AlikeBy.symm h fun _ _ ↦ Step.Alike.symm

/-- **Alike values write the same history.** -/
theorem Alike.written {v w : Value} {h : History} (hvw : Alike v w) (hv : Written v h) :
    Written w h :=
  AlikeBy.written hvw (fun _ _ _ ↦ Step.Alike.written) hv

end History

end LabelAutomaton
