import LabelAutomaton.Checkpoint.Json
import LabelAutomaton.Proofs.History.Grammar

/-!
# Which documents are checkpoints

`Checkpoint.Written v c` says which values write the checkpoint `c`: records in which each of the
seven fields occurs once, no field is read from anything else, and a limit that is missing is the
only thing that is filled in. A text is read just if it spells such a value, in any of the ways in
which a value can be spelled, and then the version alone decides (`Checkpoint.ofJson_grammar`).

`Checkpoint.Alike` says of two values that the same stands under the names of the fields, in the
history and in its steps too. The rest may differ: the order of the members, members of other
names, and whether a record is an object or an array.

The text of a checkpoint spells the value that is made for it, and this value writes the checkpoint
(`Checkpoint.written_toValue`). So a checkpoint is read back from its text, up to the check of its
version (`Checkpoint.ofJson_toJson`).
-/

set_option autoImplicit false

namespace LabelAutomaton

open Json

/-! ## Run states -/

namespace RunState

/-- The value writes the run state: as its name, or as an object with the name as its key. -/
def Written (v : Value) (s : RunState) : Prop :=
  v = .ofString s.name ∨ v = .ofMembers [(s.name, .null)]

theorem ofName_eq_ok_iff {name : String} {s : RunState} : ofName name = .ok s ↔ name = s.name := by
  constructor
  · intro h
    rw [ofName.eq_def] at h
    split at h <;> cases h <;> rfl
  · rintro rfl
    cases s <;> rfl

theorem reads_ofValue : Reader.Reads ofValue Written := by
  intro v s
  constructor
  · intro h
    rw [ofValue.eq_def] at h
    split at h
    · exact .inl (congrArg Value.ofString (ofName_eq_ok_iff.1 h))
    · rename_i name w rest closed
      obtain ⟨t, ht, hread⟩ := bind_eq_ok_iff.1 h
      split at hread
      · split at hread
        · rename_i hclosed
          simp only [Bool.and_eq_true, List.isEmpty_iff] at hclosed
          obtain ⟨rfl, rfl⟩ := hclosed
          obtain rfl := Except.ok.inj hread
          rw [ofName_eq_ok_iff.1 ht]
          exact .inr rfl
        · cases hread
      · cases hread
    · cases h
  · rintro (rfl | rfl) <;> cases s <;> rfl

theorem isWhole_ofValue : Reader.IsWhole ofValue := by
  intro v s h
  rcases (reads_ofValue v s).1 h with rfl | rfl <;> rfl

end RunState

namespace Checkpoint

/-! ## Values -/

/-- The names of the fields, in their order. -/
def fieldNames : List String :=
  ["version", "id", "timestamp", "initial_state", "current_state", "run_state", "history"]

/-- The value writes the checkpoint. -/
def Written (v : Value) (c : Checkpoint) : Prop :=
  ∃ ms, Record.Form fieldNames v ms ∧
    Record.Once ms "version" (Value.IsNat · c.version.toNat) ∧
    Record.Once ms "id" (· = .ofString c.id) ∧
    Record.Once ms "timestamp" (Instant.Written · c.time) ∧
    Record.Once ms "initial_state" (· = .ofString c.initial) ∧
    Record.Once ms "current_state" (· = .ofString c.current) ∧
    Record.Once ms "run_state" (RunState.Written · c.runState) ∧
    Record.Once ms "history" (History.Written · c.history)

/-- The values hold alike histories and the same under the names of the other fields. -/
def Alike (v w : Value) : Prop :=
  ∃ ms ns, Record.Form fieldNames v ms ∧ Record.Form fieldNames w ns ∧
    (∀ name ∈ fieldNames, name ≠ "history" → Record.valuesOf ms name = Record.valuesOf ns name) ∧
    List.Forall₂ History.Alike (Record.valuesOf ms "history") (Record.valuesOf ns "history")

theorem reads_ofValue : Reader.Reads ofValue Written := by
  intro v c
  rw [ofValue, Record.members_bind_eq_ok_iff (by decide)]
  refine exists_congr fun ms ↦ and_congr_right fun _ ↦ ?_
  simp only [fields, List.forall_mem_cons, List.not_mem_nil, IsEmpty.forall_iff, implies_true,
    and_true, bind_eq_ok_iff]
  constructor
  · rintro ⟨⟨h₁, h₂, h₃, h₄, h₅, h₆, h₇⟩, version, hversion, id, hid, time, htime,
      initial, hinitial, current, hcurrent, runState, hrunState, history, hhistory, heq⟩
    cases heq
    exact ⟨(Record.required_iff reads_word32).1 ⟨h₁, hversion⟩,
      (Record.required_iff reads_string).1 ⟨h₂, hid⟩,
      (Record.required_iff Instant.reads_ofValue).1 ⟨h₃, htime⟩,
      (Record.required_iff reads_string).1 ⟨h₄, hinitial⟩,
      (Record.required_iff reads_string).1 ⟨h₅, hcurrent⟩,
      (Record.required_iff RunState.reads_ofValue).1 ⟨h₆, hrunState⟩,
      (Record.required_iff History.reads_ofValue).1 ⟨h₇, hhistory⟩⟩
  · rintro ⟨hversion, hid, htime, hinitial, hcurrent, hrunState, hhistory⟩
    obtain ⟨h₁, hversion⟩ := (Record.required_iff reads_word32).2 hversion
    obtain ⟨h₂, hid⟩ := (Record.required_iff reads_string).2 hid
    obtain ⟨h₃, htime⟩ := (Record.required_iff Instant.reads_ofValue).2 htime
    obtain ⟨h₄, hinitial⟩ := (Record.required_iff reads_string).2 hinitial
    obtain ⟨h₅, hcurrent⟩ := (Record.required_iff reads_string).2 hcurrent
    obtain ⟨h₆, hrunState⟩ := (Record.required_iff RunState.reads_ofValue).2 hrunState
    obtain ⟨h₇, hhistory⟩ := (Record.required_iff History.reads_ofValue).2 hhistory
    exact ⟨⟨h₁, h₂, h₃, h₄, h₅, h₆, h₇⟩, _, hversion, _, hid, _, htime, _, hinitial, _, hcurrent,
      _, hrunState, _, hhistory, rfl⟩

theorem isWhole_ofValue : Reader.IsWhole ofValue := by
  refine Record.isWhole_members_bind (by decide) ?_ _
  simp only [fields, List.forall_mem_cons, List.not_mem_nil, IsEmpty.forall_iff, implies_true,
    and_true]
  exact ⟨Record.isWhole_of ((isWhole_nat _).map _), Record.isWhole_of isWhole_string,
    Record.isWhole_of Instant.isWhole_ofValue, Record.isWhole_of isWhole_string,
    Record.isWhole_of isWhole_string, Record.isWhole_of RunState.isWhole_ofValue,
    Record.isWhole_of History.isWhole_ofValue⟩

/-- A checkpoint may be written as an array. -/
theorem written_ofList_iff {items : List Value} {c : Checkpoint} (h : items.length = 7) :
    Written (.ofList items) c ↔ Written (.ofMembers (fieldNames.zip items)) c :=
  exists_congr fun _ ↦ and_congr_left fun _ ↦ Record.form_ofList_iff h

/-- **A checkpoint is written by its own value.** -/
theorem written_toValue (c : Checkpoint) : Written c.toValue c :=
  ⟨_, .object (by simp [fieldNames]), ⟨_, rfl, Value.isNat_ofNat _⟩, ⟨_, rfl, rfl⟩,
    ⟨_, rfl, c.time.written_toValue⟩, ⟨_, rfl, rfl⟩, ⟨_, rfl, rfl⟩, ⟨_, rfl, .inl rfl⟩,
    ⟨_, rfl, c.history.written_toValue⟩⟩

theorem plain_toValue (c : Checkpoint) : c.toValue.Plain := by
  refine .members ?_
  simp only [List.forall_mem_cons, List.not_mem_nil, IsEmpty.forall_iff, implies_true, and_true]
  exact ⟨.nat _, .string _, .string _, .string _, .string _, .string _, c.history.plain_toValue⟩

theorem Alike.symm {v w : Value} (h : Alike v w) : Alike w v := by
  obtain ⟨ms, ns, hv, hw, hvalues, hhistory⟩ := h
  exact ⟨ns, ms, hw, hv, fun name hname hne ↦ (hvalues name hname hne).symm,
    (hhistory.imp fun _ _ ↦ History.Alike.symm).flip⟩

/-- **Alike values write the same checkpoint.** -/
theorem Alike.written {v w : Value} {c : Checkpoint} (h : Alike v w) (hv : Written v c) :
    Written w c := by
  obtain ⟨ms, ns, hform, hform', hvalues, hhistories⟩ := h
  obtain ⟨ms', hms', hversion, hid, htime, hinitial, hcurrent, hrunState, hhistory⟩ := hv
  obtain rfl := hform.unique hms'
  refine ⟨ns, hform', hversion.of_eq ?_, hid.of_eq ?_, htime.of_eq ?_, hinitial.of_eq ?_,
    hcurrent.of_eq ?_, hrunState.of_eq ?_,
    hhistory.of_forall₂ hhistories fun _ _ ↦ History.Alike.written⟩
  all_goals exact hvalues _ (by decide) (by decide)

theorem alike_written_iff {v w : Value} {c : Checkpoint} (h : Alike v w) :
    Written v c ↔ Written w c := ⟨h.written, h.symm.written⟩

/-! ## What is written is read back -/

theorem read_toJson (c : Checkpoint) : Document.read ofValue c.toJson = .ok c := by
  rw [toJson, Document.read_toText c.plain_toValue, reads_ofValue]
  exact c.written_toValue

theorem ofJson_eq_checkVersion (c : Checkpoint) : ofJson c.toJson = c.checkVersion := by
  rw [ofJson, read_toJson]
  rfl

/-- **A checkpoint is read back from its text**, whatever its strings, its instants and the number
of its steps; one of another version is recognised as such. -/
theorem ofJson_toJson (c : Checkpoint) :
    ofJson c.toJson =
      if c.version = 1 then .ok c else .error (.unsupportedVersion c.version) := by
  rw [ofJson_eq_checkVersion]
  rfl

/-! ## Documents -/

theorem read_eq_ok_iff {text : String} {c : Checkpoint} :
    Document.read ofValue text = .ok c ↔ ∃ v : Value, v.Spelling text ∧ Written v c := by
  simp only [Document.read_eq_ok_iff isWhole_ofValue, reads_ofValue _ c]

/-- **The documents that are checkpoints.** Reading succeeds just if the text spells a value in
which each field occurs once and holds what its type asks for; then the version alone decides. Any
other text is unreadable. Two texts of alike values are read alike. -/
theorem ofJson_grammar (text : String) :
    (∀ c, Document.read ofValue text = .ok c ↔ ∃ v : Value, v.Spelling text ∧ Written v c) ∧
    (∀ (v : Value) (c : Checkpoint), v.Spelling text → Written v c →
      ofJson text = if c.version = 1 then .ok c else .error (.unsupportedVersion c.version)) ∧
    ((∀ (v : Value) (c : Checkpoint), v.Spelling text → ¬Written v c) →
      ∃ cause, ofJson text = .error (.unreadable cause)) ∧
    (∀ (v w : Value) (other : String), v.Spelling text → w.Spelling other → Alike v w → ∀ c,
      (Document.read ofValue text = .ok c ↔ Document.read ofValue other = .ok c)) ∧
    (∀ (items : List Value) (c : Checkpoint), items.length = 7 →
      (Written (.ofList items) c ↔ Written (.ofMembers (fieldNames.zip items)) c)) ∧
    (∀ (items : List Value) (h : History), items.length = 2 →
      (History.Written (.ofList items) h ↔
        History.Written (.ofMembers (["steps", "limit"].zip items)) h)) ∧
    ∀ (items : List Value) (s : Step), items.length = 4 →
      (Step.Written (.ofList items) s ↔
        Step.Written (.ofMembers (["from", "label", "to", "timestamp"].zip items)) s) := by
  refine ⟨fun c ↦ read_eq_ok_iff, fun v c hspelling hwritten ↦ ?_, fun hnone ↦ ?_,
    fun v w other hv hw halike c ↦ ?_, fun _ _ ↦ written_ofList_iff,
    fun _ _ ↦ History.written_ofList_iff, fun _ _ ↦ Step.written_ofList_iff⟩
  · rw [ofJson, read_eq_ok_iff.2 ⟨v, hspelling, hwritten⟩]
    rfl
  · rw [ofJson]
    cases hread : Document.read ofValue text with
    | error cause => exact ⟨cause, rfl⟩
    | ok c =>
      obtain ⟨v, hspelling, hwritten⟩ := read_eq_ok_iff.1 hread
      exact absurd hwritten (hnone v c hspelling)
  · rw [Document.read_of_spelling ofValue hv, Document.read_of_spelling ofValue hw,
      reads_ofValue v c, reads_ofValue w c]
    exact alike_written_iff halike

/-- A checkpoint with a step. -/
def tidy : Checkpoint :=
  ⟨1, "park", default, "a", "b", .active, ⟨[⟨"a", "via", "b", default⟩], none⟩⟩

/-- The same in another order, with further members, without the limit and with an array for the
step. -/
def untidy : Value :=
  .ofMembers [
    ("history", .ofMembers [
      ("steps", .ofList [.ofList [.ofString "a", .ofString "via", .ofString "b",
        (default : Instant).toValue]]),
      ("step", .ofString "via")]),
    ("note", .null),
    ("run_state", .ofString "Active"),
    ("current_state", .ofString "b"),
    ("initial_state", .ofString "a"),
    ("version", .ofNat 1),
    ("timestamp", (default : Instant).toValue),
    ("id", .ofString "park")]

theorem plain_untidy : untidy.Plain := by
  have hstep : Value.Plain (.ofList [.ofString "a", .ofString "via", .ofString "b",
      (default : Instant).toValue]) := by
    refine .list ?_
    simp only [List.forall_mem_cons, List.not_mem_nil, IsEmpty.forall_iff, implies_true, and_true]
    exact ⟨.string _, .string _, .string _, .string _⟩
  refine .members ?_
  simp only [List.forall_mem_cons, List.not_mem_nil, IsEmpty.forall_iff, implies_true, and_true]
  refine ⟨.members ?_, .null, .string _, .string _, .string _, .nat _, .string _, .string _⟩
  simp only [List.forall_mem_cons, List.not_mem_nil, IsEmpty.forall_iff, implies_true, and_true]
  exact ⟨.list (List.forall_mem_singleton.2 hstep), .string _⟩

theorem alike_untidy : Alike tidy.toValue untidy := by
  have hstep : Step.Alike (Step.toValue ⟨"a", "via", "b", default⟩)
      (.ofList [.ofString "a", .ofString "via", .ofString "b", (default : Instant).toValue]) := by
    refine ⟨_, _, .object (by simp), .array rfl, ?_⟩
    simp only [List.forall_mem_cons, List.not_mem_nil, IsEmpty.forall_iff, implies_true, and_true]
    exact ⟨rfl, rfl, rfl, rfl⟩
  refine ⟨_, _, .object ?_, .object ?_, ?_, ?_⟩
  · simp [fieldNames]
  · simp [fieldNames, Value.isComplete]
  · simp only [fieldNames, List.forall_mem_cons, List.not_mem_nil, IsEmpty.forall_iff,
      implies_true, and_true]
    exact ⟨fun _ ↦ rfl, fun _ ↦ rfl, fun _ ↦ rfl, fun _ ↦ rfl, fun _ ↦ rfl, fun _ ↦ rfl,
      fun h ↦ absurd rfl h⟩
  · refine .cons ⟨_, _, .object (by simp), .object ?_, ?_, rfl⟩ .nil
    · simp [Value.isComplete, Value.ofString]
    · exact .cons ⟨_, _, rfl, rfl, .cons hstep .nil⟩ .nil

/-- The untidy document is read as the tidy one is, and an empty object is not read. -/
theorem ofJson_untidy :
    ofJson untidy.toText = .ok tidy ∧
      ∃ cause, ofJson (Value.ofMembers []).toText = .error (.unreadable cause) := by
  have hempty : (Value.ofMembers []).Plain := .members (by simp)
  have hread := (ofJson_grammar tidy.toJson).2.2.2.1 tidy.toValue untidy untidy.toText
    tidy.plain_toValue.spelling plain_untidy.spelling alike_untidy tidy
  obtain ⟨v, hspelling, hwritten⟩ := ((ofJson_grammar untidy.toText).1 tidy).1
    (hread.1 (((ofJson_grammar tidy.toJson).1 tidy).2
      ⟨_, tidy.plain_toValue.spelling, tidy.written_toValue⟩))
  refine ⟨(ofJson_grammar untidy.toText).2.1 v tidy hspelling hwritten, ?_⟩
  refine (ofJson_grammar _).2.2.1 fun v c hspelling hwritten ↦ ?_
  obtain rfl := Document.spelling_unique hspelling hempty.spelling
  cases (reads_ofValue _ c).2 hwritten

end Checkpoint

end LabelAutomaton
