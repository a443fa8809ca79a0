import LabelAutomaton.Proofs.Description.Grammar
import Mathlib.Logic.Relation

/-!
# Transitions in another order

The text of a description is read as that description, whatever the order of its states. In a
document the transitions of a state are an object, and its members may be `Rearranged`: put into
another order that keeps the members of one label in theirs, or preceded by a member whose label
comes again later. Documents that differ by this alone are read alike
(`Description.json_faithful`).
-/

set_option autoImplicit false

namespace LabelAutomaton

open Json

/-! ## The values under a key -/

namespace Json.Record

variable {α : Type}

/-- Different labels change places without a change to the targets of any label. -/
theorem valuesOf_exchange {a b : String × α} (h : a.1 ≠ b.1)
    (l : List (String × α)) (name : String) :
    valuesOf (a :: b :: l) name = valuesOf (b :: a :: l) name := by
  by_cases ha : a.1 = name
  · have hb : b.1 ≠ name := fun hb ↦ h (ha.trans hb.symm)
    subst ha
    rw [valuesOf_cons_self, valuesOf_cons_of_ne hb, valuesOf_cons_of_ne hb, valuesOf_cons_self]
  · by_cases hb : b.1 = name
    · subst hb
      rw [valuesOf_cons_of_ne ha, valuesOf_cons_self, valuesOf_cons_self, valuesOf_cons_of_ne ha]
    · rw [valuesOf_cons_of_ne ha, valuesOf_cons_of_ne hb, valuesOf_cons_of_ne hb,
        valuesOf_cons_of_ne ha]

theorem valuesOf_append (l k : List (String × α)) (name : String) :
    valuesOf (l ++ k) name = valuesOf l name ++ valuesOf k name := by
  rw [valuesOf, List.filter_append, List.map_append, valuesOf, valuesOf]

theorem valuesOf_perm {l k : List (String × α)} (h : l.Perm k)
    (hnodup : (l.map (·.1)).Nodup) (name : String) : valuesOf l name = valuesOf k name := by
  induction h with
  | nil => rfl
  | cons e h ih =>
    have hrest := ih (List.nodup_cons.1 hnodup).2
    rw [← List.singleton_append, valuesOf_append, hrest, ← valuesOf_append, List.singleton_append]
  | swap a b l =>
    refine valuesOf_exchange (fun heq ↦ ?_) l name
    simp [heq] at hnodup
  | trans h _ ih ih' => exact (ih hnodup).trans (ih' ((h.map _).nodup_iff.1 hnodup))

end Json.Record

/-! ## Rearrangements -/

/-- A list of labels with their targets is changed in a way that does not matter: labels that
occur once each are permuted, neighbours with different labels change places, or a label that
occurs is put in front with some target. -/
inductive Rearranged : List (Label × StateName) → List (Label × StateName) → Prop
  | permuted {l k : List (Label × StateName)} (h : l.Perm k) (hnodup : (l.map (·.1)).Nodup) :
      Rearranged l k
  | exchanged (front back : List (Label × StateName)) {a b : Label × StateName}
      (h : a.1 ≠ b.1) : Rearranged (front ++ a :: b :: back) (front ++ b :: a :: back)
  | shadowed {l : List (Label × StateName)} (label : Label) (target : StateName)
      (h : label ∈ l.map (·.1)) : Rearranged l ((label, target) :: l)

/-- **The last target of each label stays.** -/
theorem Rearranged.getLast?_eq {l k : List (Label × StateName)} (h : Rearranged l k)
    (label : Label) :
    (Record.valuesOf l label).getLast? = (Record.valuesOf k label).getLast? := by
  cases h with
  | permuted h hnodup => rw [Record.valuesOf_perm h hnodup]
  | exchanged front back h =>
    rw [Record.valuesOf_append, Record.valuesOf_exchange h, ← Record.valuesOf_append]
  | shadowed label' target h =>
    by_cases heq : label' = label
    · subst heq
      obtain ⟨⟨_, first⟩, hfirst, rfl⟩ := List.mem_map.1 h
      have hmem := Record.mem_valuesOf_iff.2 hfirst
      rw [Record.valuesOf_cons_self, List.getLast?_cons_of_ne_nil (List.ne_nil_of_mem hmem)]
    · rw [Record.valuesOf_cons_of_ne heq]

theorem getLast?_eq_of_eqvGen {l k : List (Label × StateName)}
    (h : Relation.EqvGen Rearranged l k) (label : Label) :
    (Record.valuesOf l label).getLast? = (Record.valuesOf k label).getLast? := by
  induction h with
  | rel _ _ h => exact h.getLast?_eq label
  | refl => rfl
  | symm _ _ _ ih => exact ih.symm
  | trans _ _ _ _ _ ih ih' => exact ih.trans ih'

/-! ## Values that write the same -/

namespace StateDescription

/-- The values are objects of targets that differ by any number of rearrangements. -/
def TransitionsAlike (v w : Value) : Prop :=
  ∃ l k, v = targetsValue l ∧ w = targetsValue k ∧ Relation.EqvGen Rearranged l k

/-- The values hold transitions that are alike and the same under the names of the other
fields. -/
def Alike (v w : Value) : Prop :=
  ∃ ms ns, Record.Form ["name", "accepting", "callbacks", "transitions"] v ms ∧
    Record.Form ["name", "accepting", "callbacks", "transitions"] w ns ∧
    (∀ name ∈ ["name", "accepting", "callbacks"],
      Record.valuesOf ms name = Record.valuesOf ns name) ∧
    List.Forall₂ TransitionsAlike (Record.valuesOf ms "transitions")
      (Record.valuesOf ns "transitions")

theorem TransitionsAlike.symm {v w : Value} (h : TransitionsAlike v w) :
    TransitionsAlike w v := by
  obtain ⟨l, k, hv, hw, hgen⟩ := h
  exact ⟨k, l, hw, hv, hgen.symm⟩

theorem TransitionsAlike.written {v w : Value} {transitions : SortedMap StateName}
    (h : TransitionsAlike v w) (hv : TransitionsWritten v transitions) :
    TransitionsWritten w transitions := by
  obtain ⟨l, k, rfl, rfl, hgen⟩ := h
  obtain ⟨l', heq, hfind⟩ := hv
  obtain rfl := targetsValue_injective heq
  exact ⟨k, rfl, fun label ↦ (hfind label).trans (getLast?_eq_of_eqvGen hgen label)⟩

/-- What can be read is like itself. -/
theorem Written.alike {v : Value} {s : StateDescription} (h : Written v s) : Alike v v := by
  obtain ⟨ms, hform, -, -, -, w, hw, l, rfl, -⟩ := h
  refine ⟨ms, ms, hform, hform, fun _ _ ↦ rfl, ?_⟩
  rw [hw]
  exact .cons ⟨l, l, rfl, rfl, .refl l⟩ .nil

theorem Alike.symm {v w : Value} (h : Alike v w) : Alike w v := by
  obtain ⟨ms, ns, hv, hw, hvalues, htransitions⟩ := h
  exact ⟨ns, ms, hw, hv, fun name hname ↦ (hvalues name hname).symm,
    (htransitions.imp fun _ _ ↦ TransitionsAlike.symm).flip⟩

theorem Alike.written {v w : Value} {s : StateDescription} (h : Alike v w) (hv : Written v s) :
    Written w s := by
  obtain ⟨ms, ns, hform, hform', hvalues, halike⟩ := h
  obtain ⟨ms', hms', hname, haccepting, hcallbacks, htransitions⟩ := hv
  obtain rfl := hform.unique hms'
  simp only [List.forall_mem_cons, List.not_mem_nil, IsEmpty.forall_iff, implies_true,
    and_true] at hvalues
  obtain ⟨h₁, h₂, h₃⟩ := hvalues
  exact ⟨ns, hform', hname.of_eq h₁, haccepting.of_eq h₂, hcallbacks.of_eq h₃,
    htransitions.of_forall₂ halike fun _ _ ↦ TransitionsAlike.written⟩

end StateDescription

namespace Description

/-- The values list states that are alike, each in its place. -/
def Alike (v w : Value) : Prop :=
  ∃ ms ns, Record.Form ["states"] v ms ∧ Record.Form ["states"] w ns ∧
    List.Forall₂ (Value.BothList StateDescription.Alike) (Record.valuesOf ms "states")
      (Record.valuesOf ns "states")

theorem Alike.symm {v w : Value} (h : Alike v w) : Alike w v := by
  obtain ⟨ms, ns, hv, hw, hstates⟩ := h
  have hsymm : ∀ v w, Value.BothList StateDescription.Alike v w →
      Value.BothList StateDescription.Alike w v :=
    fun v w hvw ↦ hvw.symm fun _ _ ↦ StateDescription.Alike.symm
  exact ⟨ns, ms, hw, hv, (hstates.imp hsymm).flip⟩

/-- **Alike values write the same description.** -/
theorem Alike.written {v w : Value} {d : Description} (h : Alike v w) (hv : Written v d) :
    Written w d := by
  obtain ⟨ms, ns, hform, hform', halike⟩ := h
  obtain ⟨ms', hms', hstates⟩ := hv
  obtain rfl := hform.unique hms'
  refine ⟨ns, hform', hstates.of_forall₂ halike fun v w hlist ↦ ?_⟩
  exact hlist.lists fun _ _ _ ↦ StateDescription.Alike.written

/-- **Descriptions survive being written**, and what is read of a document does not depend on the
order of the labels. The text of a description is read as the description. A text is read just if
it spells a value that writes what is read, and then so is every text whose transitions are
rearranged. -/
theorem json_faithful :
    (∀ d : Description, (∀ s ∈ d.states, s.callbacks < UInt64.size) → ofJson d.toJson = .ok d) ∧
    (∀ text d, ofJson text = .ok d ↔ ∃ v : Value, v.Spelling text ∧ Written v d) ∧
    ∀ (text other : String) (v w : Value), v.Spelling text → w.Spelling other → Alike v w → ∀ d,
      (ofJson text = .ok d ↔ ofJson other = .ok d) := by
  refine ⟨fun d h ↦ ?_, fun _ _ ↦ ofJson_eq_ok_iff, fun text other v w hv hw halike d ↦ ?_⟩
  · exact ofJson_eq_ok_iff.2 ⟨_, d.plain_toValue.spelling, written_toValue h⟩
  · rw [ofJson, ofJson, Document.read_of_spelling ofValue hv, Document.read_of_spelling ofValue hw,
      reads_ofValue v d, reads_ofValue w d]
    exact ⟨halike.written, halike.symm.written⟩

/-- A description with a state that is listed twice, the first time with two transitions. -/
def doubled : Description :=
  ⟨[⟨"a", false, 2, .ofList [("x", "a"), ("y", "b")]⟩, ⟨"a", true, 0, .empty⟩]⟩

/-- The same, but the labels of the first state in another order and behind a target for one of
them that does not count. -/
def doubledAnew : Value :=
  .ofMembers [("states", .ofList [
    .ofMembers [("name", .ofString "a"), ("accepting", .bool false), ("callbacks", .ofNat 2),
      ("transitions", StateDescription.targetsValue [("x", "c"), ("y", "b"), ("x", "a")])],
    StateDescription.toValue ⟨"a", true, 0, .empty⟩])]

theorem plain_doubledAnew : doubledAnew.Plain := by
  refine .members (List.forall_mem_singleton.2 (.list ?_))
  simp only [List.forall_mem_cons, List.not_mem_nil, IsEmpty.forall_iff, implies_true, and_true]
  refine ⟨.members ?_, StateDescription.plain_toValue _⟩
  simp only [List.forall_mem_cons, List.not_mem_nil, IsEmpty.forall_iff, implies_true, and_true]
  exact ⟨.string _, .bool _, .nat _, .members (List.forall_mem_map.2 fun _ _ ↦ .string _)⟩

theorem alike_doubledAnew : Alike doubled.toValue doubledAnew := by
  have hlabels : Relation.EqvGen Rearranged [("x", "a"), ("y", "b")]
      [("x", "c"), ("y", "b"), ("x", "a")] := by
    have hswap : Rearranged [("x", "a"), ("y", "b")] [("y", "b"), ("x", "a")] :=
      .permuted (.swap _ _ _) (by decide)
    exact (Relation.EqvGen.rel _ _ hswap).trans _ _ _
      (.rel _ _ (.shadowed "x" "c" (by decide)))
  have hfirst : StateDescription.Alike
      (StateDescription.toValue ⟨"a", false, 2, .ofList [("x", "a"), ("y", "b")]⟩)
      (.ofMembers [("name", .ofString "a"), ("accepting", .bool false), ("callbacks", .ofNat 2),
        ("transitions", StateDescription.targetsValue [("x", "c"), ("y", "b"), ("x", "a")])]) := by
    refine ⟨_, _, .object (by simp), .object (by simp), ?_, ?_⟩
    · simp only [List.forall_mem_cons, List.not_mem_nil, IsEmpty.forall_iff, implies_true, and_true]
      exact ⟨rfl, rfl, rfl⟩
    · exact .cons ⟨_, _, rfl, rfl, hlabels⟩ .nil
  have hsecond := (StateDescription.written_toValue (s := ⟨"a", true, 0, .empty⟩) (by decide)).alike
  refine ⟨_, _, .object (by simp), .object (by simp), ?_⟩
  exact .cons ⟨_, _, rfl, rfl, .cons hfirst (.cons hsecond .nil)⟩ .nil

theorem json_faithful_doubled :
    ofJson doubled.toJson = .ok doubled ∧ ofJson doubledAnew.toText = .ok doubled := by
  have hread := json_faithful.1 doubled (by decide)
  have hanew := json_faithful.2.2 doubled.toJson doubledAnew.toText doubled.toValue doubledAnew
    doubled.plain_toValue.spelling plain_doubledAnew.spelling alike_doubledAnew doubled
  exact ⟨hread, hanew.1 hread⟩

end Description

end LabelAutomaton
