import LabelAutomaton.Config
import LabelAutomaton.Proofs.History.Grammar

/-!
# Which documents are options

`Config.Written v c` says which values write the options `c`. Every field may be missing, and has
its standard value then; so a record of options may also be a short array. A text is read just if it
spells such a value (`Config.ofJson_eq_ok_iff`).

For an object this comes to what stands under the two names (`Config.ofJson_partial`). The two are
not missing in the same way. A limit may be `null`, which is what it is when nothing stands there,
and whether to record may not.
-/

set_option autoImplicit false

namespace LabelAutomaton.Config

open Json

/-- The names of the fields, in their order. -/
def fieldNames : List String := ["record_history", "history_limit"]

/-- The fields are read from these members; those that are missing have their standard values. -/
structure ReadFrom (ms : List (String × Value)) (c : Config) : Prop where
  /-- Whether to record is a truth value. -/
  recordHistory : Record.OnceOr ms "record_history" (· = .bool c.recordHistory)
    (c.recordHistory = standard.recordHistory)
  /-- The limit is a number, or `null` for none. -/
  historyLimit : Record.OnceOr ms "history_limit" (History.LimitWritten · c.historyLimit)
    (c.historyLimit = standard.historyLimit)

/-- The value writes the options. -/
def Written (v : Value) (c : Config) : Prop :=
  ∃ ms, (Record.Form fieldNames v ms ∨ Record.Short fieldNames v ms) ∧ ReadFrom ms c

theorem reads_ofValue : Reader.Reads ofValue Written := by
  intro v c
  rw [ofValue, bind_eq_ok_iff]
  refine exists_congr fun ms ↦ ?_
  rw [Record.members_eq_ok_iff_of_defaulted (by decide)]
  simp only [fields, List.forall_mem_cons, List.not_mem_nil, IsEmpty.forall_iff, implies_true,
    and_true, true_and, bind_eq_ok_iff, and_assoc]
  refine and_congr_right fun _ ↦ ?_
  constructor
  · rintro ⟨h₁, h₂, recordHistory, hrecord, historyLimit, hlimit, h⟩
    cases h
    exact ⟨(Record.defaulted_iff reads_bool).1 ⟨h₁, hrecord⟩,
      (Record.defaulted_iff History.reads_limit).1 ⟨h₂, hlimit⟩⟩
  · rintro ⟨hrecord, hlimit⟩
    obtain ⟨h₁, hrecord⟩ := (Record.defaulted_iff reads_bool).2 hrecord
    obtain ⟨h₂, hlimit⟩ := (Record.defaulted_iff History.reads_limit).2 hlimit
    exact ⟨h₁, h₂, _, hrecord, _, hlimit, rfl⟩

theorem isWhole_ofValue : Reader.IsWhole ofValue := by
  refine Record.isWhole_members_bind (by decide) ?_ _
  simp only [fields, List.forall_mem_cons, List.not_mem_nil, IsEmpty.forall_iff, implies_true,
    and_true]
  exact ⟨Record.isWhole_of isWhole_bool,
    Record.isWhole_of (isWhole_nullable ((isWhole_nat _).map _))⟩

/-- Options are written by their own value. -/
theorem written_toValue (c : Config) : Written c.toValue c := by
  refine ⟨_, .inl (.object (by simp [fieldNames])), .inl ⟨_, rfl, rfl⟩, .inl ⟨_, rfl, ?_⟩⟩
  cases c.historyLimit with
  | none => exact .inl ⟨rfl, rfl⟩
  | some limit => exact .inr ⟨limit, Value.isNat_ofNat _, rfl⟩

theorem plain_toValue (c : Config) : c.toValue.Plain := by
  refine .members ?_
  simp only [List.forall_mem_cons, List.not_mem_nil, IsEmpty.forall_iff, implies_true, and_true]
  refine ⟨.bool _, ?_⟩
  cases c.historyLimit with
  | none => exact .null
  | some limit => exact .nat _

/-- **A text is read as options just if it spells a value that writes them.** -/
theorem ofJson_eq_ok_iff {text : String} {c : Config} :
    ofJson text = .ok c ↔ ∃ v : Value, v.Spelling text ∧ Written v c := by
  simp only [ofJson, Document.read_eq_ok_iff isWhole_ofValue, reads_ofValue _ c]

/-! ## Objects -/

section Object

variable {ms : List (String × Value)}

/-- Members from which options are read leave no choice of them but for the order in which they
stand. -/
theorem ReadFrom.of_perm {ns : List (String × Value)} {c : Config} (h : ReadFrom ms c)
    (hvalues : ∀ name ∈ fieldNames, (Record.valuesOf ms name).Perm (Record.valuesOf ns name)) :
    ReadFrom ns c :=
  ⟨h.recordHistory.of_perm (hvalues _ (by decide)), h.historyLimit.of_perm (hvalues _ (by decide))⟩

/-- There are limits to be written by `null` and by the numbers of 64 bits. -/
theorem exists_limitWritten_iff {v : Value} :
    (∃ limit, History.LimitWritten v limit) ↔ v = .null ∨ ∃ n, v.IsNat n ∧ n < UInt64.size := by
  constructor
  · rintro ⟨limit, ⟨hnull, -⟩ | ⟨n, hn, -⟩⟩
    · exact .inl hnull
    · exact .inr ⟨n.toNat, hn, n.toNat_lt⟩
  · rintro (hnull | ⟨n, hn, hlt⟩)
    · exact ⟨none, .inl ⟨hnull, rfl⟩⟩
    · refine ⟨some (UInt64.ofNat n), .inr ⟨_, ?_, rfl⟩⟩
      rwa [UInt64.toNat_ofNat', Nat.mod_eq_of_lt hlt]

theorem exists_readFrom_iff :
    (∃ c, ReadFrom ms c) ↔
      (∀ name ∈ fieldNames, (Record.valuesOf ms name).length ≤ 1) ∧
        (∀ v ∈ Record.valuesOf ms "record_history", ∃ b, v = .bool b) ∧
        ∀ v ∈ Record.valuesOf ms "history_limit",
          v = .null ∨ ∃ n, v.IsNat n ∧ n < UInt64.size := by
  have hfields : (∃ c, ReadFrom ms c) ↔
      (∃ b, Record.OnceOr ms "record_history" (· = .bool b) (b = standard.recordHistory)) ∧
        ∃ limit, Record.OnceOr ms "history_limit" (History.LimitWritten · limit)
          (limit = standard.historyLimit) :=
    ⟨fun ⟨c, h⟩ ↦ ⟨⟨_, h.recordHistory⟩, ⟨_, h.historyLimit⟩⟩,
      fun ⟨⟨b, hb⟩, ⟨limit, hlimit⟩⟩ ↦ ⟨⟨b, limit⟩, hb, hlimit⟩⟩
  rw [hfields, Record.exists_onceOr_iff, Record.exists_onceOr_iff]
  simp only [exists_limitWritten_iff, fieldNames, List.forall_mem_cons, List.not_mem_nil,
    IsEmpty.forall_iff, implies_true, and_true]
  exact and_and_and_comm

variable {text : String} (hspelling : (Value.ofMembers ms).Spelling text)

include hspelling

/-- A text of an object is read from the members of the object. -/
theorem ofJson_eq_ok_iff_readFrom {c : Config} : ofJson text = .ok c ↔ ReadFrom ms c := by
  have hobject : Record.Form fieldNames (.ofMembers ms) ms := by
    refine .object fun m hm _ ↦ ?_
    exact (Value.isComplete_object_iff.1 hspelling.1).2 _
      (List.mem_map_of_mem (f := fun m : String × Value ↦ (some m.1, m.2)) hm)
  rw [ofJson, Document.read_of_spelling ofValue hspelling, reads_ofValue]
  constructor
  · rintro ⟨ns, hform | hshort, h⟩
    · rwa [hobject.unique hform]
    · cases hshort
  · exact fun h ↦ ⟨ms, .inl hobject, h⟩

/-- **The objects that are options.** Reading an object succeeds just if each field occurs no more
than once, where to record is a truth value, and the limit is `null` or a number of 64 bits with
nothing but digits. A field that occurs then has the value that stands there, and one that does not
has its standard value. Nothing else in the text matters: not the order of the members, nor the way
in which they are spelled, nor what further members hold. What was written is read back. -/
theorem ofJson_partial :
    ((∃ c, ofJson text = .ok c) ↔
      (∀ name ∈ fieldNames, (Record.valuesOf ms name).length ≤ 1) ∧
        (∀ v ∈ Record.valuesOf ms "record_history", ∃ b, v = .bool b) ∧
        ∀ v ∈ Record.valuesOf ms "history_limit",
          v = .null ∨ ∃ n, v.IsNat n ∧ n < UInt64.size) ∧
    (∀ c, ofJson text = .ok c ↔
      Record.OnceOr ms "record_history" (· = .bool c.recordHistory) (c.recordHistory = false) ∧
        Record.OnceOr ms "history_limit" (History.LimitWritten · c.historyLimit)
          (c.historyLimit = none)) ∧
    (∀ (ns : List (String × Value)) (other : String), (Value.ofMembers ns).Spelling other →
      (∀ name ∈ fieldNames, (Record.valuesOf ms name).Perm (Record.valuesOf ns name)) →
        ∀ c, ofJson text = .ok c ↔ ofJson other = .ok c) ∧
    ∀ c : Config, ofJson c.toJson = .ok c := by
  simp only [ofJson_eq_ok_iff_readFrom hspelling]
  refine ⟨exists_readFrom_iff, fun c ↦ ⟨fun h ↦ ⟨h.1, h.2⟩, fun h ↦ ⟨h.1, h.2⟩⟩,
    fun ns other hother hvalues c ↦ ?_, fun c ↦ ?_⟩
  · rw [ofJson_eq_ok_iff_readFrom hother]
    exact ⟨fun h ↦ h.of_perm hvalues, fun h ↦ h.of_perm fun name hname ↦ (hvalues name hname).symm⟩
  · exact ofJson_eq_ok_iff.2 ⟨_, c.plain_toValue.spelling, c.written_toValue⟩

end Object

/-- The fields out of their order, behind something else. -/
def spread : List (String × Value) :=
  [("a", .ofList []), ("history_limit", .ofNat 9), ("record_history", .bool true)]

/-- They are read in spite of white space and of a key that is spelled in another way, and so they
are in any other order; two limits are not. -/
theorem ofJson_spread :
    let text := "\x7b\"a\":[], \"history_limit\":9,\n\"\\u0072ecord_history\":true\x7d"
    let twice := "\x7b\"history_limit\":9,\"history_limit\":null\x7d"
    (Value.ofMembers spread).Spelling text ∧ ofJson text = .ok ⟨true, some 9⟩ ∧
      (∀ other, (Value.ofMembers spread.reverse).Spelling other →
        ofJson other = .ok ⟨true, some 9⟩) ∧
      ¬∃ c, ofJson twice = .ok c := by
  intro text twice
  have hspelling : (Value.ofMembers spread).Spelling text :=
    .of_ofChars_eq rfl (by decide +kernel)
  have htwice : (Value.ofMembers [("history_limit", .ofNat 9), ("history_limit", .null)]).Spelling
      twice := .of_ofChars_eq rfl (by decide +kernel)
  obtain ⟨-, hread, hother, -⟩ := ofJson_partial hspelling
  have htext : ofJson text = .ok ⟨true, some 9⟩ :=
    (hread _).2 ⟨.inl ⟨_, rfl, rfl⟩, .inl ⟨_, rfl, .inr ⟨9, Value.isNat_ofNat 9, rfl⟩⟩⟩
  refine ⟨hspelling, htext, fun other h ↦ (hother _ other h ?_ _).1 htext, fun hex ↦ ?_⟩
  · simp only [fieldNames, List.forall_mem_cons, List.not_mem_nil, IsEmpty.forall_iff,
      implies_true, and_true]
    exact ⟨.refl _, .refl _⟩
  · have hlength := ((ofJson_partial htwice).1.1 hex).1 "history_limit" (by decide)
    exact absurd hlength (by decide)

end LabelAutomaton.Config
