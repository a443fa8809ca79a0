import LabelAutomaton.Description.Dot
import LabelAutomaton.Description.Json
import LabelAutomaton.Proofs.Builder.Described

/-!
# The order of declarations

Declarations may come in any order that lets each of them be taken. Order counts in two places only:
of two paths for one label the later wins, and the callbacks of one state run as they were
registered. `Declaration.Agree` holds of two sequences that declare the same up to the rest of their
order. Nothing of that rest is left in the graph, which is determined by its lookups
(`Graph.ext_lookups`), and so nobody can tell which of the two it was
(`Builder.order_is_immaterial`).
-/

set_option autoImplicit false

namespace LabelAutomaton

open Automaton

/-- The sequences declare the same, in whatever order. -/
structure Declaration.Agree (ds ds' : List Declaration) : Prop where
  /-- The same states are named in paths. -/
  mem_endpoints_iff (name : StateName) : name ∈ ds.flatMap endpoints ↔ name ∈ ds'.flatMap endpoints
  /-- The last paths for a label lead to the same state. -/
  target?_eq (source : StateName) (label : Label) :
    (ofDeclarations ds).target? source label = (ofDeclarations ds').target? source label
  /-- The same states are declared to accept. -/
  accept_mem_iff (state : StateName) : .accept state ∈ ds ↔ .accept state ∈ ds'
  /-- The same callbacks are declared for a state, in the same order. -/
  filterMap_adds?_eq (state : StateName) :
    ds.filterMap (adds? state) = ds'.filterMap (adds? state)

namespace Builder

/-- All of the declarations are taken when they come one after the other. -/
def TakesAll (b : Builder) (ds : List Declaration) : Prop :=
  ∀ result ∈ b.results ds, result = .ok ()

/-- The graph of two sequences that declare the same. -/
theorem graph_eq_of_agree {config config' : Config} {ds ds' : List Declaration}
    (hall : (empty config).TakesAll ds) (hall' : (empty config').TakesAll ds')
    (h : Declaration.Agree ds ds') :
    ((empty config).declareAll ds).graph = ((empty config').declareAll ds').graph := by
  have hA := describes_declareAll config ds
  have hA' := describes_declareAll config' ds'
  refine Graph.ext_lookups (fun name ↦ ?_) (fun source label ↦ ?_) (fun name ↦ ?_) fun name ↦ ?_
  · rw [Bool.eq_iff_iff, contains_declareAll_iff, contains_declareAll_iff, h.mem_endpoints_iff]
  · rw [hA.target?, hA'.target?, h.target?_eq]
  · rw [callbacks_declareAll, callbacks_declareAll, ← filterMap_adds?_taken config,
      ← filterMap_adds?_taken config', taken_eq_self _ hall, taken_eq_self _ hall',
      h.filterMap_adds?_eq]
  · rw [Bool.eq_iff_iff, hA.accepting, hA'.accepting, ← accept_mem_taken_iff config,
      ← accept_mem_taken_iff config', taken_eq_self _ hall, taken_eq_self _ hall',
      h.accept_mem_iff]

/-- **The order of declarations does not matter**, but for the paths of one label and the callbacks
of one state. Two sequences that declare the same, and of which all is taken, lead to the same
graph, whatever the options; so its description is the same, as a value, as JSON and as dot text.
With the same options the same machines start, and the same calls have the same outcomes. -/
theorem order_is_immaterial {config config' : Config} {ds ds' : List Declaration}
    (hall : (empty config).TakesAll ds) (hall' : (empty config').TakesAll ds')
    (h : Declaration.Agree ds ds') :
    let b := (empty config).declareAll ds
    let b' := (empty config').declareAll ds'
    b.graph = b'.graph ∧ b.graph.describe = b'.graph.describe ∧
      b.graph.describe.toJson = b'.graph.describe.toJson ∧
      b.graph.describe.toDot = b'.graph.describe.toDot ∧
      (config = config' → ∀ state, b.start state = b'.start state ∧
        ∀ m e, b.start state = .ok (m, e) → ∀ past cs,
          m.runAt b.graph past cs = m.runAt b'.graph past cs) := by
  intro b b'
  have hgraph : b.graph = b'.graph := graph_eq_of_agree hall hall' h
  refine ⟨hgraph, congrArg _ hgraph, ?_, ?_, fun hconfig state ↦ ⟨?_, fun m e _ past cs ↦ ?_⟩⟩
  · rw [hgraph]
  · rw [hgraph]
  · have hoptions : b.config = b'.config := by
      rw [config_declareAll, config_declareAll]
      exact hconfig
    rw [start, start, hgraph, hoptions]
  · rw [hgraph]

/-- A path that is led elsewhere later on, with callbacks and acceptance in between. -/
def draft : List Declaration :=
  [.path "a" "x" "a", .onEntry "a" (.succeeding "f"), .path "a" "x" "b", .accept "b",
    .onEntry "b" (.failing "g" ⟨"no", []⟩), .onEntry "a" (.succeeding "h"), .accept "a"]

/-- The same without the detour, in another order. -/
def fairCopy : List Declaration :=
  [.path "a" "x" "b", .accept "a", .accept "b", .onEntry "b" (.failing "g" ⟨"no", []⟩),
    .onEntry "a" (.succeeding "f"), .onEntry "a" (.succeeding "h")]

theorem draft_eq_fairCopy :
    let b := (empty .standard).declareAll draft
    let b' := (empty .standard).declareAll fairCopy
    (empty .standard).TakesAll draft ∧ (empty .standard).TakesAll fairCopy ∧
      Declaration.Agree draft fairCopy ∧ b.graph.describe.toDot = b'.graph.describe.toDot ∧
      b.start "a" = .ok (.start .standard "a", .started "a") ∧
      (Machine.start .standard "a").runAt b.graph [] [(default, .transition "x")] =
        (Machine.start .standard "a").runAt b'.graph [] [(default, .transition "x")] := by
  intro b b'
  have hresults : (empty .standard).results draft = List.replicate 7 (.ok ()) := rfl
  have hresults' : (empty .standard).results fairCopy = List.replicate 6 (.ok ()) := rfl
  have hall : (empty .standard).TakesAll draft :=
    fun _ hmem ↦ List.eq_of_mem_replicate (hresults ▸ hmem)
  have hall' : (empty .standard).TakesAll fairCopy :=
    fun _ hmem ↦ List.eq_of_mem_replicate (hresults' ▸ hmem)
  have hagree : Declaration.Agree draft fairCopy := by
    refine ⟨fun name ↦ ?_, fun source label ↦ ?_, fun state ↦ ?_, fun state ↦ ?_⟩
    · simp [draft, fairCopy, Declaration.endpoints]
    · by_cases h : source = "a" ∧ label = "x" <;>
        simp [draft, fairCopy, ofDeclarations, Declaration.leads?, h]
    · simp [draft, fairCopy, or_comm]
    · rcases eq_or_ne state "a" with rfl | ha
      · rfl
      · rcases eq_or_ne state "b" with rfl | hb
        · rfl
        · simp [draft, fairCopy, List.filterMap_cons, Declaration.adds?, ha, hb]
  have hstart : b.start "a" = .ok (.start .standard "a", .started "a") := rfl
  obtain ⟨-, -, -, hdot, hmachines⟩ := order_is_immaterial hall hall' hagree
  exact ⟨hall, hall', hagree, hdot, hstart, (hmachines rfl "a").2 _ _ hstart [] _⟩

end Builder

end LabelAutomaton
