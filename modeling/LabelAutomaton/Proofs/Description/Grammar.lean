import LabelAutomaton.Description.Json
import LabelAutomaton.Proofs.Json.Reader

/-!
# Which values write a description

`Description.Written v d` says which values write the description `d`. The states are a list and
are read item by item, so none is lost and none is moved. The transitions of a state are an object,
in which a label may stand many times; what is read of it is the map with the last target of each
label (`SortedMap.find?_ofList`). A description is written by its own value
(`Description.written_toValue`).
-/

set_option autoImplicit false

namespace LabelAutomaton

open Json

/-! ## Maps -/

namespace SortedMap

variable {α : Type}

/-- Of the entries with one key the last counts. -/
theorem find?_ofList (l : List (String × α)) (key : String) :
    (ofList l).find? key = (Record.valuesOf l key).getLast? := by
  induction l using List.reverseRecOn with
  | nil => rfl
  | append_singleton l e ih =>
    have hinsert : ofList (l ++ [e]) = (ofList l).insert e.1 e.2 := by
      rw [ofList, List.foldl_append]
      rfl
    rw [hinsert, find?_insert, ih, Record.valuesOf, Record.valuesOf, List.filter_append,
      List.map_append]
    by_cases hkey : key = e.1
    · subst hkey
      simp
    · rw [if_neg hkey, List.filter_cons_of_neg (by simpa using Ne.symm hkey)]
      simp

theorem lookup_eq_getLast? {l : List (String × α)} (h : l.Pairwise fun a b ↦ a.1 < b.1)
    (key : String) : lookup key l = (Record.valuesOf l key).getLast? := by
  induction l with
  | nil => rfl
  | cons e l ih =>
    obtain ⟨k, v⟩ := e
    obtain ⟨hk, hl⟩ := List.pairwise_cons.1 h
    by_cases hkey : key = k
    · subst hkey
      have hnil : Record.valuesOf l key = [] :=
        List.eq_nil_iff_forall_not_mem.2 fun w hw ↦
          String.lt_irrefl key (hk _ (Record.mem_valuesOf_iff.1 hw))
      rw [lookup, if_pos rfl, Record.valuesOf_cons_self, hnil]
      rfl
    · rw [lookup, if_neg hkey, Record.valuesOf_cons_of_ne (Ne.symm hkey), ih hl]

/-- The entries of a map are a list from which it can be made. -/
theorem find?_eq_getLast? (m : SortedMap α) (key : String) :
    m.find? key = (Record.valuesOf m.entries key).getLast? :=
  lookup_eq_getLast? m.sorted key

end SortedMap

/-! ## States -/

namespace StateDescription

/-- The value of a list of labels with their targets. -/
def targetsValue (l : List (Label × StateName)) : Value :=
  .ofMembers (l.map fun e ↦ (e.1, .ofString e.2))

theorem targetsValue_injective : Function.Injective targetsValue := by
  intro l k h
  refine List.map_injective_iff.2 (fun a b hab ↦ ?_) (Value.ofMembers_injective h)
  cases a
  cases b
  cases hab
  rfl

/-- The value writes the transitions: each label leads to the target that comes last with it. -/
def TransitionsWritten (v : Value) (transitions : SortedMap StateName) : Prop :=
  ∃ l, v = targetsValue l ∧
    ∀ label, transitions.find? label = (Record.valuesOf l label).getLast?

/-- The value writes the state. -/
def Written (v : Value) (s : StateDescription) : Prop :=
  ∃ ms, Record.Form ["name", "accepting", "callbacks", "transitions"] v ms ∧
    Record.Once ms "name" (· = .ofString s.name) ∧
    Record.Once ms "accepting" (· = .bool s.accepting) ∧
    Record.Once ms "callbacks" (fun v ↦ v.IsNat s.callbacks ∧ s.callbacks < UInt64.size) ∧
    Record.Once ms "transitions" (TransitionsWritten · s.transitions)

theorem readTargets_eq_ok_iff {members : List (Option String × Value)}
    {l : List (Label × StateName)} :
    readTargets members = .ok l ↔ members = l.map fun e ↦ (some e.1, .ofString e.2) := by
  induction members generalizing l with
  | nil =>
    rw [readTargets, Except.ok.injEq]
    exact ⟨fun h ↦ by rw [← h, List.map_nil], fun h ↦ (List.map_eq_nil_iff.1 h.symm).symm⟩
  | cons m members ih =>
    obtain ⟨key, v⟩ := m
    cases key with
    | none =>
      refine iff_of_false (fun h ↦ by cases h) fun h ↦ ?_
      cases l <;> cases h
    | some label =>
      rw [readTargets, bind_eq_ok_iff]
      constructor
      · rintro ⟨target, htarget, h⟩
        obtain ⟨rest, hrest, h⟩ := bind_eq_ok_iff.1 h
        obtain rfl := Except.ok.inj h
        rw [(reads_string v target).1 htarget, ih.1 hrest]
        rfl
      · intro h
        cases l with
        | nil => cases h
        | cons e l =>
          cases h
          exact ⟨e.2, rfl, bind_eq_ok_iff.2 ⟨l, ih.2 rfl, rfl⟩⟩

theorem reads_transitions : Reader.Reads readTransitions TransitionsWritten := by
  intro v transitions
  constructor
  · intro h
    cases v with
    | object members closed =>
      obtain ⟨l, hl, hclosed⟩ := bind_eq_ok_iff.1 h
      obtain rfl := readTargets_eq_ok_iff.1 hl
      cases closed with
      | false => cases hclosed
      | true =>
        obtain rfl := Except.ok.inj hclosed
        refine ⟨l, ?_, SortedMap.find?_ofList l⟩
        rw [targetsValue, Value.ofMembers_eq, List.map_map]
        rfl
    | _ => cases h
  · rintro ⟨l, rfl, hfind⟩
    obtain rfl : SortedMap.ofList l = transitions :=
      SortedMap.ext_find? fun label ↦ by rw [SortedMap.find?_ofList, hfind]
    have hl : readTargets (l.map fun e ↦ (some e.1, .ofString e.2)) = .ok l :=
      readTargets_eq_ok_iff.2 rfl
    rw [targetsValue, Value.ofMembers_eq, List.map_map, readTransitions]
    show readTargets (l.map fun e ↦ (some e.1, .ofString e.2)) >>= _ = _
    rw [hl]
    rfl

theorem isWhole_transitions : Reader.IsWhole readTransitions := by
  intro v transitions h
  obtain ⟨l, rfl, -⟩ := (reads_transitions v transitions).1 h
  rw [targetsValue, Value.ofMembers_eq]
  exact Value.isComplete_object_iff.2
    ⟨rfl, List.forall_mem_map.2 (List.forall_mem_map.2 fun _ _ ↦ rfl)⟩

theorem reads_ofValue : Reader.Reads ofValue Written := by
  intro v s
  rw [ofValue, Record.members_bind_eq_ok_iff (by decide)]
  refine exists_congr fun ms ↦ and_congr_right fun _ ↦ ?_
  simp only [fields, List.forall_mem_cons, List.not_mem_nil, IsEmpty.forall_iff, implies_true,
    and_true, bind_eq_ok_iff]
  have hnat := reads_nat (Nat.le_refl UInt64.size)
  constructor
  · rintro ⟨⟨h₁, h₂, h₃, h₄⟩, name, hname, accepting, haccepting, callbacks, hcallbacks,
      transitions, htransitions, h⟩
    cases h
    exact ⟨(Record.required_iff reads_string).1 ⟨h₁, hname⟩,
      (Record.required_iff reads_bool).1 ⟨h₂, haccepting⟩,
      (Record.required_iff hnat).1 ⟨h₃, hcallbacks⟩,
      (Record.required_iff reads_transitions).1 ⟨h₄, htransitions⟩⟩
  · rintro ⟨hname, haccepting, hcallbacks, htransitions⟩
    obtain ⟨h₁, hname⟩ := (Record.required_iff reads_string).2 hname
    obtain ⟨h₂, haccepting⟩ := (Record.required_iff reads_bool).2 haccepting
    obtain ⟨h₃, hcallbacks⟩ := (Record.required_iff hnat).2 hcallbacks
    obtain ⟨h₄, htransitions⟩ := (Record.required_iff reads_transitions).2 htransitions
    exact ⟨⟨h₁, h₂, h₃, h₄⟩, _, hname, _, haccepting, _, hcallbacks, _, htransitions, rfl⟩

theorem isWhole_ofValue : Reader.IsWhole ofValue := by
  refine Record.isWhole_members_bind (by decide) ?_ _
  simp only [fields, List.forall_mem_cons, List.not_mem_nil, IsEmpty.forall_iff, implies_true,
    and_true]
  exact ⟨Record.isWhole_of isWhole_string, Record.isWhole_of isWhole_bool,
    Record.isWhole_of (isWhole_nat _), Record.isWhole_of isWhole_transitions⟩

/-- A state is written by its own value, if its callbacks can be counted. -/
theorem written_toValue {s : StateDescription} (h : s.callbacks < UInt64.size) :
    Written s.toValue s := by
  refine ⟨_, .object (by simp), ⟨_, rfl, rfl⟩, ⟨_, rfl, rfl⟩, ⟨_, rfl, Value.isNat_ofNat _, h⟩,
    ⟨_, rfl, ?_⟩⟩
  exact ⟨s.transitions.entries, rfl, s.transitions.find?_eq_getLast?⟩

theorem plain_toValue (s : StateDescription) : s.toValue.Plain := by
  refine .members ?_
  simp only [List.forall_mem_cons, List.not_mem_nil, IsEmpty.forall_iff, implies_true, and_true]
  exact ⟨.string _, .bool _, .nat _, .members (List.forall_mem_map.2 fun _ _ ↦ .string _)⟩

end StateDescription

/-! ## Descriptions -/

namespace Description

/-- The value writes the description. -/
def Written (v : Value) (d : Description) : Prop :=
  ∃ ms, Record.Form ["states"] v ms ∧
    Record.Once ms "states" (Value.Lists StateDescription.Written · d.states)

theorem reads_ofValue : Reader.Reads ofValue Written := by
  intro v d
  rw [ofValue, Record.members_bind_eq_ok_iff (by decide)]
  refine exists_congr fun ms ↦ and_congr_right fun _ ↦ ?_
  simp only [fields, List.forall_mem_cons, List.not_mem_nil, IsEmpty.forall_iff, implies_true,
    and_true, bind_eq_ok_iff]
  have hstates := reads_list StateDescription.reads_ofValue
  constructor
  · rintro ⟨h₁, states, hread, h⟩
    cases h
    exact (Record.required_iff hstates).1 ⟨h₁, hread⟩
  · intro hread
    obtain ⟨h₁, hread⟩ := (Record.required_iff hstates).2 hread
    exact ⟨h₁, _, hread, rfl⟩

theorem isWhole_ofValue : Reader.IsWhole ofValue := by
  refine Record.isWhole_members_bind (by decide) ?_ _
  simp only [fields, List.forall_mem_cons, List.not_mem_nil, IsEmpty.forall_iff, implies_true,
    and_true]
  exact Record.isWhole_of (isWhole_list StateDescription.isWhole_ofValue)

/-- A description is written by its own value, if all callbacks can be counted. -/
theorem written_toValue {d : Description} (h : ∀ s ∈ d.states, s.callbacks < UInt64.size) :
    Written d.toValue d := by
  refine ⟨_, .object (by simp), ⟨_, rfl, d.states.map StateDescription.toValue, rfl, ?_⟩⟩
  rw [List.forall₂_map_left_iff, List.forall₂_same]
  exact fun s hs ↦ StateDescription.written_toValue (h s hs)

theorem plain_toValue (d : Description) : d.toValue.Plain := by
  refine .members ?_
  simp only [List.forall_mem_cons, List.not_mem_nil, IsEmpty.forall_iff, implies_true, and_true]
  exact .list (List.forall_mem_map.2 fun s _ ↦ s.plain_toValue)

/-- **A text is read as a description just if it spells a value that writes it.** -/
theorem ofJson_eq_ok_iff {text : String} {d : Description} :
    ofJson text = .ok d ↔ ∃ v : Value, v.Spelling text ∧ Written v d := by
  simp only [ofJson, Document.read_eq_ok_iff isWhole_ofValue, reads_ofValue _ d]

end Description

end LabelAutomaton
