import LabelAutomaton.Machine

/-!
# Builders

A `Builder` is a graph under construction together with the options of the machines that will walk
it. It takes `Declaration`s. A path creates the states that it names; callbacks and acceptance are
declared for states that exist, and the declaration fails without effect for one that does not.
-/

set_option autoImplicit false

namespace LabelAutomaton

/-- Why a declaration, or the start of a machine, failed. -/
inductive BuildError where
  /-- No path begins or ends at a state of this name. -/
  | unknownState (state : StateName)
deriving DecidableEq

/-- The text of an error. -/
def BuildError.message : BuildError → String
  | .unknownState state =>
    s!"Unknown state '{state}'. States are created by declaring a path to or from them"

/-- A graph under construction, and the options of its machines. -/
structure Builder where
  /-- What was declared so far. -/
  graph : Graph
  /-- The options of the machines. -/
  config : Config

/-- Something that can be declared. -/
inductive Declaration where
  /-- The label leads from the source to the target. -/
  | path (source : StateName) (label : Label) (target : StateName)
  /-- The callback runs whenever the state is entered. -/
  | onEntry (state : StateName) (callback : Callback)
  /-- Runs may finish in the state. -/
  | accept (state : StateName)

/-- What a declaration leaves behind. -/
structure Declared where
  /-- The builder afterwards. -/
  builder : Builder
  /-- Whether the declaration was taken. -/
  result : Except BuildError Unit
  /-- The events reported. -/
  events : List Event

namespace Builder

/-- The builder to which nothing was declared. -/
def empty (config : Config) : Builder := ⟨Graph.empty, config⟩

instance : Inhabited Builder := ⟨empty Config.standard⟩

/-- The event that a path reports: it has replaced another target. -/
def replacement (b : Builder) (source : StateName) (label : Label) (target : StateName) :
    List Event :=
  match b.graph.target? source label with
  | some previous =>
    if previous = target then [] else [.pathReplaced source label target previous]
  | none => []

/-- The builder with another graph, if there is one; there is none for want of the state. -/
def withGraph? (b : Builder) (state : StateName) : Option Graph → Declared
  | some graph => ⟨{ b with graph }, .ok (), []⟩
  | none => ⟨b, .error (.unknownState state), []⟩

/-- Take a declaration. -/
def declare (b : Builder) : Declaration → Declared
  | .path source label target =>
    ⟨{ b with graph := b.graph.addPath source label target }, .ok (),
      b.replacement source label target⟩
  | .onEntry state callback => b.withGraph? state (b.graph.addCallback? state callback)
  | .accept state => b.withGraph? state (b.graph.accept? state)

/-- Take declarations one after the other, whether or not they succeed. -/
def declareAll (b : Builder) (ds : List Declaration) : Builder :=
  ds.foldl (fun b d ↦ (b.declare d).builder) b

/-- Everything that was reported while the declarations were taken. -/
def reports (b : Builder) : List Declaration → List Event
  | [] => []
  | d :: rest => (b.declare d).events ++ (b.declare d).builder.reports rest

/-- A machine at the given state. -/
def start (b : Builder) (state : StateName) : Except BuildError (Machine × Event) :=
  if b.graph.contains state then .ok (Machine.start b.config state, .started state)
  else .error (.unknownState state)

/-- A machine is started in every state that the builder knows, and in no other. -/
theorem start_eq_ok_iff {b : Builder} {state : StateName} {m : Machine} {e : Event} :
    b.start state = .ok (m, e) ↔
      b.graph.contains state = true ∧ m = Machine.start b.config state ∧ e = .started state := by
  rw [start]
  split
  · rename_i hcontains
    rw [Except.ok.injEq, Prod.mk.injEq, and_iff_right hcontains, eq_comm, eq_comm (a := e)]
  · rename_i hnot
    simp [hnot]

end Builder

end LabelAutomaton
