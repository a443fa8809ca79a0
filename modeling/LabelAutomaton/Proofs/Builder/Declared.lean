import LabelAutomaton.Builder
import Mathlib.Data.List.Induction

/-!
# What was declared

What a sequence of declarations means can be said without a graph: `Automaton.ofDeclarations` looks
through the sequence itself. A state is known when some path begins or ends at it, a label leads
where the *last* path for it leads, and a state accepts when it was known at the time that it was
declared to.

Each lookup in a builder's graph changes with a declaration in one way (`target?_declare`,
`contains_declare`, `isAccepting_declare`), so the graph that a sequence leaves behind answers as
that automaton does (`Builder.describes_declareAll`).
-/

set_option autoImplicit false

namespace LabelAutomaton

namespace Declaration

/-- Where the declaration lets the label lead from the source, if it says so. -/
def leads? (source : StateName) (label : Label) : Declaration → Option StateName
  | path source' label' target => if source = source' ∧ label = label' then some target else none
  | onEntry .. | accept .. => none

/-- The declaration is a path that begins or ends at the state. -/
def Creates (state : StateName) : Declaration → Prop
  | path source _ target => state = source ∨ state = target
  | onEntry .. | accept .. => False

/-- The state that has to be there for the declaration to be taken. -/
def subject? : Declaration → Option StateName
  | path .. => none
  | onEntry state _ => some state
  | accept state => some state

end Declaration

/-! ## The automaton of a sequence of declarations -/

/-- An automaton, as mathematics has it. -/
structure Automaton where
  /-- The states. -/
  Known : StateName → Prop
  /-- Where a label leads from a state. -/
  target? : StateName → Label → Option StateName
  /-- The states in which a run may finish. -/
  Accepting : StateName → Prop

namespace Automaton

/-- Some declaration creates the state. -/
def IsCreated (ds : List Declaration) (state : StateName) : Prop := ∃ d ∈ ds, d.Creates state

/-- The automaton that was declared: for a label, the last path counts, and to accept is declared
of states that were created before. -/
def ofDeclarations (ds : List Declaration) : Automaton where
  Known := IsCreated ds
  target? source label := ds.reverse.findSome? (·.leads? source label)
  Accepting state := ∃ before after, ds = before ++ .accept state :: after ∧ IsCreated before state

/-- The graph answers as the automaton does. -/
structure Describes (A : Automaton) (g : Graph) : Prop where
  /-- They have the same states. -/
  known (state : StateName) : g.contains state = true ↔ A.Known state
  /-- They have the same transitions. -/
  target? (source : StateName) (label : Label) : g.target? source label = A.target? source label
  /-- They accept in the same states. -/
  accepting (state : StateName) : g.isAccepting state = true ↔ A.Accepting state

/-! One more declaration, at the end. -/

section Concat

variable (ds : List Declaration) (d : Declaration)

theorem isCreated_concat (state : StateName) :
    IsCreated (ds ++ [d]) state ↔ d.Creates state ∨ IsCreated ds state := by
  constructor
  · rintro ⟨d', hmem, hd'⟩
    rcases List.mem_append.1 hmem with hmem | hmem
    · exact Or.inr ⟨d', hmem, hd'⟩
    · obtain rfl := List.mem_singleton.1 hmem
      exact Or.inl hd'
  · rintro (hd | ⟨d', hmem, hd'⟩)
    · exact ⟨d, by simp, hd⟩
    · exact ⟨d', List.mem_append_left _ hmem, hd'⟩

theorem target?_concat (source : StateName) (label : Label) :
    (ofDeclarations (ds ++ [d])).target? source label =
      (d.leads? source label).or ((ofDeclarations ds).target? source label) := by
  simp only [ofDeclarations, List.reverse_append, List.reverse_singleton, List.singleton_append,
    List.findSome?_cons]
  cases d.leads? source label <;> rfl

theorem accepting_concat (state : StateName) :
    (ofDeclarations (ds ++ [d])).Accepting state ↔
      d = .accept state ∧ IsCreated ds state ∨ (ofDeclarations ds).Accepting state := by
  constructor
  · rintro ⟨before, after, hds, hcreated⟩
    rcases List.eq_nil_or_concat after with rfl | ⟨after, d', rfl⟩
    · obtain ⟨rfl, hd⟩ := List.append_inj' hds rfl
      exact Or.inl ⟨List.singleton_inj.1 hd, hcreated⟩
    · have hsplit : ds ++ [d] = (before ++ .accept state :: after) ++ [d'] := by
        rw [hds, List.concat_eq_append, List.append_assoc, List.cons_append]
      exact Or.inr ⟨before, after, (List.append_inj' hsplit rfl).1, hcreated⟩
  · rintro (⟨rfl, hcreated⟩ | ⟨before, after, rfl, hcreated⟩)
    · exact ⟨ds, [], rfl, hcreated⟩
    · exact ⟨before, after ++ [d], by rw [List.append_assoc, List.cons_append], hcreated⟩

end Concat

end Automaton

/-! ## What a declaration changes in a builder -/

namespace Builder

theorem builder_withGraph? (b : Builder) (state : StateName) (graph? : Option Graph) :
    (b.withGraph? state graph?).builder = { b with graph := graph?.getD b.graph } := by
  cases graph? <;> rfl

theorem result_withGraph? (b : Builder) (state : StateName) (graph? : Option Graph) :
    (b.withGraph? state graph?).result =
      if graph?.isSome then .ok () else .error (.unknownState state) := by
  cases graph? <;> rfl

variable (b : Builder) (d : Declaration)

theorem config_declare : (b.declare d).builder.config = b.config := by
  cases d with
  | path source label target => rfl
  | onEntry state callback => rw [declare, builder_withGraph?]
  | accept state => rw [declare, builder_withGraph?]

/-- A declaration about a state that does not exist is refused, and no other is. -/
theorem result_declare {state : StateName} (h : d.subject? = some state) :
    (b.declare d).result =
      if b.graph.contains state then .ok () else .error (.unknownState state) := by
  cases d with
  | path source label target => cases h
  | onEntry state' callback =>
    obtain rfl := Option.some.inj h
    rw [declare, result_withGraph?, Graph.isSome_addCallback?]
  | accept state' =>
    obtain rfl := Option.some.inj h
    rw [declare, result_withGraph?, Graph.isSome_accept?]

theorem target?_declare (source : StateName) (label : Label) :
    (b.declare d).builder.graph.target? source label =
      (d.leads? source label).or (b.graph.target? source label) := by
  cases d with
  | path source' label' target =>
    rw [declare, Graph.target?_addPath, Declaration.leads?]
    split <;> rfl
  | onEntry state callback =>
    rw [declare, builder_withGraph?]
    exact Graph.target?_getD_update? b.graph state _ _ source label
  | accept state =>
    rw [declare, builder_withGraph?]
    exact Graph.target?_getD_update? b.graph state _ _ source label

theorem contains_declare (state : StateName) :
    (b.declare d).builder.graph.contains state = true ↔
      d.Creates state ∨ b.graph.contains state = true := by
  cases d with
  | path source label target =>
    rw [declare, Graph.contains_addPath, Bool.or_eq_true, Bool.or_eq_true, decide_eq_true_iff,
      decide_eq_true_iff, ← or_assoc, Declaration.Creates]
  | onEntry state' callback =>
    rw [declare, builder_withGraph?, Declaration.Creates, false_or]
    exact Bool.eq_iff_iff.1 (Graph.contains_getD_update? b.graph state' _ _ state)
  | accept state' =>
    rw [declare, builder_withGraph?, Declaration.Creates, false_or]
    exact Bool.eq_iff_iff.1 (Graph.contains_getD_update? b.graph state' _ _ state)

theorem isAccepting_declare (state : StateName) :
    (b.declare d).builder.graph.isAccepting state = true ↔
      d = .accept state ∧ b.graph.contains state = true ∨ b.graph.isAccepting state = true := by
  cases d with
  | path source label target => simp [declare, Graph.isAccepting_addPath]
  | onEntry state' callback =>
    simp [declare, builder_withGraph?, Graph.isAccepting_getD_addCallback?]
  | accept state' =>
    rw [declare, builder_withGraph?, Graph.isAccepting_getD_accept?, Bool.or_eq_true,
      Bool.and_eq_true, decide_eq_true_iff, Declaration.accept.injEq]
    refine or_congr_left ⟨?_, ?_⟩
    · rintro ⟨rfl, hcontains⟩
      exact ⟨rfl, hcontains⟩
    · rintro ⟨rfl, hcontains⟩
      exact ⟨rfl, hcontains⟩

/-! ## What a sequence of declarations leaves behind -/

theorem declareAll_concat (ds : List Declaration) :
    b.declareAll (ds ++ [d]) = ((b.declareAll ds).declare d).builder := by
  rw [declareAll, List.foldl_append]
  rfl

theorem config_declareAll (ds : List Declaration) : (b.declareAll ds).config = b.config := by
  induction ds using List.reverseRecOn with
  | nil => rfl
  | append_singleton ds d ih => rw [declareAll_concat, config_declare, ih]

/-- **The graph is the declared automaton.** -/
theorem describes_declareAll (config : Config) (ds : List Declaration) :
    (Automaton.ofDeclarations ds).Describes ((empty config).declareAll ds).graph := by
  induction ds using List.reverseRecOn with
  | nil =>
    refine ⟨fun state ↦ ?_, fun source label ↦ rfl, fun state ↦ ?_⟩
    · constructor
      · intro h
        cases h
      · rintro ⟨d, hmem, -⟩
        cases hmem
    · constructor
      · intro h
        cases h
      · rintro ⟨before, after, hds, -⟩
        cases before <;> cases hds
  | append_singleton ds d ih =>
    rw [declareAll_concat]
    refine ⟨fun state ↦ ?_, fun source label ↦ ?_, fun state ↦ ?_⟩
    · rw [contains_declare, ih.known]
      exact (Automaton.isCreated_concat ds d state).symm
    · rw [target?_declare, ih.target?, Automaton.target?_concat]
    · rw [isAccepting_declare, ih.known, ih.accepting, Automaton.accepting_concat]
      rfl

end Builder

end LabelAutomaton
