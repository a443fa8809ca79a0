import LabelAutomaton.Description
import LabelAutomaton.Proofs.Builder.Taken
import Mathlib.Data.List.Dedup
import Mathlib.Data.List.Nodup

/-!
# The description is the reference table

What a builder shows of its graph can be read off the declarations: `Description.Lists` holds of a
description that lists the states that paths begin or end at, each once and in order, with the
target declared last for each of its labels, and with acceptance and callbacks as far as these
declarations were taken. The description of a builder is such a list, and what else a builder
answers about its graph agrees with it (`Builder.describe_is_reference_table`).
-/

set_option autoImplicit false

namespace LabelAutomaton

open Automaton

namespace Declaration

/-- The states that a path begins and ends at. -/
def endpoints : Declaration → List StateName
  | path source _ target => [source, target]
  | onEntry .. | accept .. => []

/-- The source and the label of a path. -/
def pair? : Declaration → Option (StateName × Label)
  | path source label _ => some (source, label)
  | onEntry .. | accept .. => none

theorem mem_endpoints_iff {d : Declaration} {state : StateName} :
    state ∈ d.endpoints ↔ d.Creates state := by
  cases d <;> simp [endpoints, Creates]

theorem isCreated_iff {ds : List Declaration} {state : StateName} :
    IsCreated ds state ↔ state ∈ ds.flatMap endpoints := by
  simp only [IsCreated, List.mem_flatMap, mem_endpoints_iff]

/-- A label leads somewhere from a state just if some path says so. -/
theorem exists_target?_iff {ds : List Declaration} {source : StateName} {label : Label} :
    (∃ target, (ofDeclarations ds).target? source label = some target) ↔
      (source, label) ∈ ds.filterMap pair? := by
  have hleads (d : Declaration) :
      (d.leads? source label).isSome ↔ d.pair? = some (source, label) := by
    cases d with
    | path source' label' target =>
      simp only [leads?, pair?, Option.some.injEq, Prod.mk.injEq]
      split <;> simp_all [eq_comm]
    | onEntry | accept => simp [leads?, pair?]
  rw [← Option.isSome_iff_exists, ofDeclarations, List.findSome?_isSome_iff, List.mem_filterMap]
  simp only [List.mem_reverse, hleads]

end Declaration

/-! ## What a description shows of a graph -/

namespace Graph

variable (g : Graph)

theorem mem_states_describe_iff {s : StateDescription} :
    s ∈ g.describe.states ↔
      ∃ record, g.states.find? s.name = some record ∧ s = record.describe s.name := by
  simp only [describe, List.mem_map, Prod.exists, SortedMap.mem_entries_iff]
  constructor
  · rintro ⟨name, record, hfind, rfl⟩
    exact ⟨record, hfind, rfl⟩
  · rintro ⟨record, hfind, hs⟩
    exact ⟨s.name, record, hfind, hs.symm⟩

theorem names_describe : g.describe.states.map (·.name) = g.states.keys := by
  rw [describe, SortedMap.keys, List.map_map]
  rfl

theorem nodup_names_describe : (g.describe.states.map (·.name)).Nodup := by
  rw [names_describe]
  exact g.states.pairwise_keys.imp String.ne_of_lt

theorem mem_names_describe_iff {name : StateName} :
    name ∈ g.describe.states.map (·.name) ↔ g.contains name = true := by
  rw [names_describe, SortedMap.mem_keys_iff, contains, SortedMap.contains,
    Option.isSome_iff_exists]

variable {g} {s : StateDescription}

theorem mem_transitions_describe_iff (h : s ∈ g.describe.states) {label : Label}
    {target : StateName} :
    (label, target) ∈ s.transitions.entries ↔ g.target? s.name label = some target := by
  obtain ⟨record, hfind, hs⟩ := g.mem_states_describe_iff.1 h
  rw [hs, SortedMap.mem_entries_iff, target?]
  show _ ↔ ((g.states.find? s.name).bind _) = _
  rw [hfind]
  rfl

theorem accepting_describe (h : s ∈ g.describe.states) : s.accepting = g.isAccepting s.name := by
  obtain ⟨record, hfind, hs⟩ := g.mem_states_describe_iff.1 h
  rw [isAccepting, hfind, hs]
  rfl

theorem callbacks_describe (h : s ∈ g.describe.states) :
    s.callbacks = (g.callbacks s.name).length := by
  obtain ⟨record, hfind, hs⟩ := g.mem_states_describe_iff.1 h
  rw [callbacks, hfind, hs]
  rfl

/-- A run may finish in a state just if it is shown to accept. -/
theorem isAccepting_iff_describe {name : StateName} :
    g.isAccepting name = true ↔ ∃ s ∈ g.describe.states, s.name = name ∧ s.accepting = true := by
  constructor
  · intro h
    rw [isAccepting] at h
    split at h
    · rename_i record hfind
      exact ⟨record.describe name, g.mem_states_describe_iff.2 ⟨record, hfind, rfl⟩, rfl, h⟩
    · cases h
  · rintro ⟨s, hs, rfl, haccepting⟩
    rw [← accepting_describe hs, haccepting]

theorem mem_acceptingStates_describe_iff {name : StateName} :
    name ∈ g.describe.acceptingStates ↔ g.isAccepting name = true := by
  rw [isAccepting_iff_describe, Description.acceptingStates, List.mem_map]
  constructor
  · rintro ⟨s, hs, rfl⟩
    obtain ⟨hs, haccepting⟩ := List.mem_filter.1 hs
    exact ⟨s, hs, rfl, haccepting⟩
  · rintro ⟨s, hs, rfl, haccepting⟩
    exact ⟨s, List.mem_filter.2 ⟨hs, haccepting⟩, rfl⟩

end Graph

/-! ## The reference table -/

/-- The description lists what was declared, with the declarations that were taken among it. -/
structure Description.Lists (table : Description) (ds taken : List Declaration) : Prop where
  /-- The states come in the order of their names, each once. -/
  pairwise_names : (table.states.map (·.name)).Pairwise (· < ·)
  /-- They are the states that paths begin or end at. -/
  mem_names_iff (name : StateName) :
    name ∈ table.states.map (·.name) ↔ name ∈ ds.flatMap Declaration.endpoints
  /-- The labels of a state come in order, each once. -/
  pairwise_labels : ∀ s ∈ table.states, s.transitions.keys.Pairwise (· < ·)
  /-- A label leads where the last path for it says. -/
  mem_transitions_iff : ∀ s ∈ table.states, ∀ label target,
    (label, target) ∈ s.transitions.entries ↔
      (ofDeclarations ds).target? s.name label = some target
  /-- Every target is listed itself. -/
  target_mem_names : ∀ s ∈ table.states, ∀ label target,
    (label, target) ∈ s.transitions.entries → target ∈ table.states.map (·.name)
  /-- A state accepts if that was declared and taken. -/
  accepting_iff : ∀ s ∈ table.states, s.accepting = true ↔ .accept s.name ∈ taken
  /-- Callbacks count if they were declared and taken. -/
  callbacks_eq : ∀ s ∈ table.states,
    s.callbacks = (taken.filterMap (Declaration.adds? s.name)).length

namespace Description.Lists

variable {table : Description} {ds taken : List Declaration} (h : table.Lists ds taken)

include h

theorem nodup_names : (table.states.map (·.name)).Nodup :=
  h.pairwise_names.imp String.ne_of_lt

/-- There are as many states as names in paths. -/
theorem length_states :
    table.states.length = (ds.flatMap Declaration.endpoints).dedup.length := by
  have hperm : (table.states.map (·.name)).Perm (ds.flatMap Declaration.endpoints).dedup := by
    rw [List.perm_ext_iff_of_nodup h.nodup_names (List.nodup_dedup _)]
    intro name
    rw [List.mem_dedup, h.mem_names_iff]
  rw [← List.length_map, hperm.length_eq]

/-- There are as many transitions as pairs of a source and a label in paths. -/
theorem transitionCount_eq :
    table.transitionCount = (ds.filterMap Declaration.pair?).dedup.length := by
  let pairs := table.states.flatMap fun s ↦ s.transitions.keys.map (s.name, ·)
  have hlength : table.transitionCount = pairs.length := by
    simp only [pairs, transitionCount, edges, SortedMap.keys, List.length_flatMap, List.length_map]
  have hnodup : pairs.Nodup := by
    refine List.nodup_flatMap.2 ⟨fun s hs ↦ ?_, ?_⟩
    · refine List.Nodup.map (fun _ _ heq ↦ (Prod.mk.inj heq).2) ?_
      exact (h.pairwise_labels s hs).imp String.ne_of_lt
    · -- the sources of two states differ
      refine (List.pairwise_map.1 h.nodup_names).imp fun hne pair hpair hpair' ↦ ?_
      obtain ⟨_, -, rfl⟩ := List.mem_map.1 hpair
      obtain ⟨_, -, heq⟩ := List.mem_map.1 hpair'
      exact hne (Prod.mk.inj heq).1.symm
  have hperm : pairs.Perm (ds.filterMap Declaration.pair?).dedup := by
    rw [List.perm_ext_iff_of_nodup hnodup (List.nodup_dedup _)]
    rintro ⟨source, label⟩
    rw [List.mem_dedup, ← Declaration.exists_target?_iff, List.mem_flatMap]
    constructor
    · rintro ⟨s, hs, hpair⟩
      obtain ⟨_, hlabel, heq⟩ := List.mem_map.1 hpair
      obtain ⟨rfl, rfl⟩ := Prod.mk.inj heq
      obtain ⟨target, htarget⟩ := SortedMap.mem_keys_iff.1 hlabel
      exact ⟨target, (h.mem_transitions_iff s hs _ target).1 (SortedMap.mem_entries_iff.2 htarget)⟩
    · rintro ⟨target, htarget⟩
      have hsource : source ∈ table.states.map (·.name) := by
        rw [h.mem_names_iff, List.mem_flatMap]
        obtain ⟨d, hd, hpair⟩ :=
          List.mem_filterMap.1 (Declaration.exists_target?_iff.1 ⟨_, htarget⟩)
        refine ⟨d, hd, ?_⟩
        cases d <;> simp_all [Declaration.pair?, Declaration.endpoints]
      obtain ⟨s, hs, rfl⟩ := List.mem_map.1 hsource
      refine ⟨s, hs, List.mem_map.2 ⟨label, ?_, rfl⟩⟩
      have hentry := (h.mem_transitions_iff s hs label target).2 htarget
      exact SortedMap.mem_keys_iff.2 ⟨target, SortedMap.mem_entries_iff.1 hentry⟩
  rw [hlength, hperm.length_eq]

theorem pairwise_acceptingStates : table.acceptingStates.Pairwise (· < ·) :=
  h.pairwise_names.sublist (List.filter_sublist.map _)

end Description.Lists

namespace Builder

theorem contains_declareAll_iff (config : Config) (ds : List Declaration) (name : StateName) :
    ((empty config).declareAll ds).graph.contains name = true ↔
      name ∈ ds.flatMap Declaration.endpoints :=
  ((describes_declareAll config ds).known name).trans Declaration.isCreated_iff

theorem lists_describe (config : Config) (ds : List Declaration) :
    ((empty config).declareAll ds).graph.describe.Lists ds ((empty config).taken ds) := by
  have hA := describes_declareAll config ds
  constructor
  case pairwise_names =>
    rw [Graph.names_describe]
    exact SortedMap.pairwise_keys _
  case mem_names_iff =>
    intro name
    rw [Graph.mem_names_describe_iff, contains_declareAll_iff]
  case pairwise_labels => exact fun s _ ↦ s.transitions.pairwise_keys
  case mem_transitions_iff =>
    intro s hs label target
    rw [Graph.mem_transitions_describe_iff hs, hA.target?]
  case target_mem_names =>
    intro s hs label target hentry
    rw [Graph.mem_names_describe_iff]
    exact Graph.contains_target ((Graph.mem_transitions_describe_iff hs).1 hentry)
  case accepting_iff =>
    intro s hs
    rw [Graph.accepting_describe hs, hA.accepting, accept_mem_taken_iff]
  case callbacks_eq =>
    intro s hs
    rw [Graph.callbacks_describe hs, callbacks_declareAll, filterMap_adds?_taken]

/-- **The description is the reference table.** Declarations about states are taken if an earlier
path begins or ends at the state, and otherwise refused without effect; machines start in the states
of paths. The description lists what was declared, and all that the builder answers about its graph
is in the list. -/
theorem describe_is_reference_table (config : Config) (ds : List Declaration) :
    let b := (empty config).declareAll ds
    let table := b.graph.describe
    (∀ before d name, d.subject? = some name →
      let b := (empty config).declareAll before
      if name ∈ before.flatMap Declaration.endpoints then (b.declare d).result = .ok ()
      else b.declare d = ⟨b, .error (.unknownState name), []⟩) ∧
    (∀ name, b.start name =
      if name ∈ ds.flatMap Declaration.endpoints then .ok (.start config name, .started name)
      else .error (.unknownState name)) ∧
    table.Lists ds ((empty config).taken ds) ∧
    (∀ name, b.graph.contains name = true ↔ name ∈ table.states.map (·.name)) ∧
    (∀ name, b.graph.isAccepting name = true ↔
      ∃ s ∈ table.states, s.name = name ∧ s.accepting = true) ∧
    b.graph.size = table.states.length ∧
    b.graph.size = (ds.flatMap Declaration.endpoints).dedup.length ∧
    table.transitionCount = (ds.filterMap Declaration.pair?).dedup.length ∧
    table.acceptingStates.Pairwise (· < ·) ∧
    ∀ name, name ∈ table.acceptingStates ↔ b.graph.isAccepting name = true := by
  intro b table
  have hlists : table.Lists ds ((empty config).taken ds) := lists_describe config ds
  have hsize : b.graph.size = table.states.length := (List.length_map _).symm
  refine ⟨fun before d name hsubject ↦ ?_, fun name ↦ ?_, hlists, fun name ↦ ?_, fun name ↦ ?_,
    hsize, hsize.trans hlists.length_states, hlists.transitionCount_eq,
    hlists.pairwise_acceptingStates, fun name ↦ ?_⟩
  · simp only [← contains_declareAll_iff config before name]
    split
    · rename_i hcontains
      rw [result_declare _ d hsubject, if_pos hcontains]
    · rename_i hcontains
      exact declare_eq_of_refused _ d hsubject (Bool.eq_false_iff.2 hcontains)
  · simp only [start, ← contains_declareAll_iff config ds name]
    rw [config_declareAll]
    rfl
  · exact (Graph.mem_names_describe_iff _).symm
  · exact Graph.isAccepting_iff_describe
  · exact Graph.mem_acceptingStates_describe_iff

/-- A state of which something is declared before it is created, and again behind. -/
def hasty : List Declaration :=
  [.accept "out", .path "in" "go" "out", .path "in" "go" "in", .onEntry "out" (.succeeding "f"),
    .accept "out", .onEntry "hall" (.succeeding "g")]

theorem hasty_table :
    let b := (empty .standard).declareAll hasty
    (Declaration.accept "out").subject? = some "out" ∧
      (empty .standard).declare (.accept "out") =
        ⟨empty .standard, .error (.unknownState "out"), []⟩ ∧
      (((empty .standard).declareAll (hasty.take 4)).declare (.accept "out")).result = .ok () ∧
      b.start "hall" = .error (.unknownState "hall") ∧ b.graph.size = 2 ∧
      b.graph.describe.transitionCount = 1 ∧
      ∃ s ∈ b.graph.describe.states, s.name = "out" ∧ s.accepting = true ∧ s.callbacks = 1 := by
  intro b
  obtain ⟨htaken, hstart, hlists, -, -, -, hsize, hcount, -, -⟩ :=
    describe_is_reference_table .standard hasty
  have hout : "out" ∈ b.graph.describe.states.map (·.name) :=
    (hlists.mem_names_iff "out").2 (by decide)
  obtain ⟨s, hs, hname⟩ := List.mem_map.1 hout
  have haccept : .accept s.name ∈ (empty .standard).taken hasty := by
    rw [hname, accept_mem_taken_iff]
    exact ⟨hasty.take 4, hasty.drop 5, rfl, .path "in" "go" "out", by simp [hasty], Or.inr rfl⟩
  refine ⟨rfl, htaken [] (.accept "out") "out" rfl, htaken (hasty.take 4) (.accept "out") "out" rfl,
    hstart "hall", hsize, hcount, s, hs, hname, (hlists.accepting_iff s hs).2 haccept, ?_⟩
  rw [hlists.callbacks_eq s hs, hname, filterMap_adds?_taken]
  rfl

end Builder

end LabelAutomaton
