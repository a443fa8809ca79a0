import LabelAutomaton.Graph

/-!
# Descriptions of graphs

A `Description` is what can be shown of a graph: its states with their transitions, whether they
accept, and how many callbacks they have. `Graph.describe` takes it from the graph, in the order of
the names; one that was read from a text may have its states in any order, and a name twice.

The transitions of all states together are its `Description.edges`.
-/

set_option autoImplicit false

namespace LabelAutomaton

/-- What can be shown of a state. -/
structure StateDescription where
  /-- The name of the state. -/
  name : StateName
  /-- Whether a run may finish in it. -/
  accepting : Bool
  /-- The number of its callbacks. -/
  callbacks : Nat
  /-- The target of each label that leaves it. -/
  transitions : SortedMap StateName

/-- What can be shown of a graph. -/
structure Description where
  /-- The states, in the order in which they are shown. -/
  states : List StateDescription

namespace Description

/-- The transitions, each with its source, label and target, in the order of the states. -/
def edges (d : Description) : List (StateName × Label × StateName) :=
  d.states.flatMap fun s ↦
    s.transitions.entries.map fun (label, target) ↦ (s.name, label, target)

/-- The number of transitions. -/
def transitionCount (d : Description) : Nat := d.edges.length

/-- The names of the states in which a run may finish. -/
def acceptingStates (d : Description) : List StateName :=
  (d.states.filter (·.accepting)).map (·.name)

end Description

/-- What can be shown of a state of this name. -/
def StateRecord.describe (record : StateRecord) (name : StateName) : StateDescription :=
  ⟨name, record.accepting, record.callbacks.length, record.transitions⟩

/-- What can be shown of the graph, its states in the order of their names. -/
def Graph.describe (g : Graph) : Description :=
  ⟨g.states.entries.map fun (name, record) ↦ record.describe name⟩

end LabelAutomaton
