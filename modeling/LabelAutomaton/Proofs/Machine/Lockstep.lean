import LabelAutomaton.Description
import LabelAutomaton.Proofs.Machine.Reference

/-!
# Callbacks cannot influence the run

Graphs have the same outline when they agree on states, transitions and acceptance, which is what a
description shows apart from the number of callbacks. Machines that begin alike over two such
graphs run in lockstep (`Machine.lockstep_runAt`): after each call they are the same machine, and
the results of the call differ at most in what callbacks said.
-/

set_option autoImplicit false

namespace LabelAutomaton

/-! ## Outlines -/

/-- What a description shows apart from the number of callbacks. -/
def Description.outline (d : Description) : List (StateName × Bool × SortedMap StateName) :=
  d.states.map fun s ↦ (s.name, s.accepting, s.transitions)

/-- The graphs have the same states and transitions, and accept in the same states. -/
structure Graph.SameOutline (g g' : Graph) : Prop where
  /-- They have the same states. -/
  contains (state : StateName) : g.contains state = g'.contains state
  /-- They have the same transitions. -/
  target? (source : StateName) (label : Label) : g.target? source label = g'.target? source label
  /-- They accept in the same states. -/
  isAccepting (state : StateName) : g.isAccepting state = g'.isAccepting state

/-- A description tells the outline of the graph. -/
theorem Graph.sameOutline_of_outline_eq {g g' : Graph}
    (h : g.describe.outline = g'.describe.outline) : g.SameOutline g' := by
  let traits (record : StateRecord) : Bool × SortedMap StateName :=
    (record.accepting, record.transitions)
  have hlookup (g : Graph) (key : StateName) :
      (g.states.find? key).map traits = SortedMap.lookup key g.describe.outline := by
    rw [SortedMap.find?, ← SortedMap.lookup_map, describe, Description.outline, List.map_map]
    rfl
  have hfind (key : StateName) :
      (g.states.find? key).map traits = (g'.states.find? key).map traits := by
    rw [hlookup, hlookup, h]
  refine ⟨fun state ↦ ?_, fun source label ↦ ?_, fun state ↦ ?_⟩
  · have hsome := congrArg Option.isSome (hfind state)
    rwa [Option.isSome_map, Option.isSome_map] at hsome
  · have hbind := congrArg (Option.bind · (·.2.find? label)) (hfind source)
    rwa [Option.bind_map, Option.bind_map] at hbind
  · have helim (g : Graph) : g.isAccepting state =
        ((g.states.find? state).map traits).elim false (·.1) := by
      rw [isAccepting]
      cases g.states.find? state <;> rfl
    rw [helim, helim, hfind]

/-! ## One call -/

/-- The results of a call differ at most in what callbacks said. -/
inductive Call.ResultsAgree : Call → Except MachineError Unit → Except MachineError Unit → Prop
  /-- They do not differ. -/
  | same (c : Call) (result : Except MachineError Unit) : ResultsAgree c result result
  /-- A callback has failed on one side. -/
  | left (label : Label) (state : StateName) (failure : Failure) :
      ResultsAgree (.transition label) (.error (.callback state failure)) (.ok ())
  /-- A callback has failed on the other side. -/
  | right (label : Label) (state : StateName) (failure : Failure) :
      ResultsAgree (.transition label) (.ok ()) (.error (.callback state failure))
  /-- Callbacks have failed on both sides, for reasons of their own. -/
  | both (label : Label) (state : StateName) (failure failure' : Failure) :
      ResultsAgree (.transition label) (.error (.callback state failure))
        (.error (.callback state failure'))

/-- A finish has nothing to do with callbacks. -/
theorem Call.ResultsAgree.eq_of_finish {r r' : Except MachineError Unit}
    (h : Call.finish.ResultsAgree r r') : r = r' := by
  cases h
  rfl

/-- The outcomes of a call over two graphs differ at most in what callbacks said. -/
structure Outcome.Agree (g g' : Graph) (c : Call) (o o' : Outcome) : Prop where
  /-- The machines are the same. -/
  machine : o.machine = o'.machine
  /-- They may finish where they stand, or not, in both graphs. -/
  isAccepting : o.machine.isAccepting g = o'.machine.isAccepting g'
  /-- The results differ at most in what callbacks said. -/
  result : c.ResultsAgree o.result o'.result

/-- The outcomes of calls agree one by one. -/
inductive Outcome.Lockstep (g g' : Graph) : List Call → List Outcome → List Outcome → Prop
  /-- There are no calls. -/
  | nil : Lockstep g g' [] [] []
  /-- The outcomes of the first call agree, and so do the others. -/
  | cons {c : Call} {o o' : Outcome} {cs : List Call} {os os' : List Outcome}
      (hfirst : o.Agree g g' c o') (hrest : Lockstep g g' cs os os') :
      Lockstep g g' (c :: cs) (o :: os) (o' :: os')

namespace Machine

section Lockstep

variable {g g' : Graph} (hg : g.SameOutline g')

include hg

theorem isAccepting_eq (m : Machine) : m.isAccepting g = m.isAccepting g' := by
  rw [isAccepting, isAccepting, hg.isAccepting]

/-- **A call over two graphs of the same outline** leaves the same machine, whatever was called
before over either. -/
theorem agree_call (past past' : List Invocation) (now : Instant) (m : Machine) (c : Call) :
    (m.call g past now c).Agree g g' c (m.call g' past' now c) := by
  have h := answers_call g past now m c
  generalize m.call g past now c = o at h
  cases h with
  | unusable c hstate =>
    rw [(Answers.unusable c hstate).call_eq]
    exact ⟨rfl, isAccepting_eq hg _, .same ..⟩
  | @blocked label hstate htarget =>
    rw [hg.target?] at htarget
    rw [(Answers.blocked hstate htarget).call_eq]
    exact ⟨rfl, isAccepting_eq hg _, .same ..⟩
  | @moved label target _ hstate htarget _ | @failed label target _ _ hstate htarget _ =>
    -- over the other graph the callbacks of the state may end either way
    rw [hg.target?] at htarget
    rcases hcalls : runCallbacks past' target 0 (g'.callbacks target) with ⟨_, _ | failure⟩
    · rw [(Answers.moved hstate htarget hcalls).call_eq]
      exact ⟨rfl, isAccepting_eq hg _, by constructor⟩
    · rw [(Answers.failed hstate htarget hcalls).call_eq]
      exact ⟨rfl, isAccepting_eq hg _, by constructor⟩
  | accepted hstate haccepting =>
    rw [hg.isAccepting] at haccepting
    rw [(Answers.accepted hstate haccepting).call_eq]
    exact ⟨rfl, isAccepting_eq hg _, .same ..⟩
  | refused hstate haccepting =>
    rw [hg.isAccepting] at haccepting
    rw [(Answers.refused hstate haccepting).call_eq]
    exact ⟨rfl, isAccepting_eq hg _, .same ..⟩

/-! ## A run -/

/-- **Runs over two graphs of the same outline are in lockstep.** -/
theorem lockstep_runAt (past past' : List Invocation) (m : Machine) (cs : List (Instant × Call)) :
    Outcome.Lockstep g g' (cs.map (·.2)) (m.runAt g past cs) (m.runAt g' past' cs) := by
  induction cs generalizing past past' m with
  | nil => exact .nil
  | cons tc cs ih =>
    obtain ⟨now, c⟩ := tc
    have hfirst := agree_call hg past past' now m c
    refine .cons hfirst ?_
    rw [← hfirst.machine]
    exact ih _ _ _

end Lockstep

end Machine

namespace Builder

theorem start_eq_of_sameOutline {b b' : Builder} (hconfig : b.config = b'.config)
    (hg : b.graph.SameOutline b'.graph) (state : StateName) : b.start state = b'.start state := by
  rw [start, start, hg.contains, hconfig]

/-- **Callbacks cannot influence the run.** Over two builders whose options are the same and whose
descriptions differ at most in the number of callbacks, the same machine starts or none does. After
each call it is still the same machine, which records the same and may finish or not alike; the
results differ at most in what callbacks said, and those of finishing not at all. -/
theorem callbacks_cannot_influence {b b' : Builder} (hconfig : b.config = b'.config)
    (houtline : b.graph.describe.outline = b'.graph.describe.outline) (state : StateName) :
    b.start state = b'.start state ∧
      ∀ m e, b.start state = .ok (m, e) →
        m.isAccepting b.graph = m.isAccepting b'.graph ∧
          ∀ past past' cs, Outcome.Lockstep b.graph b'.graph (cs.map (·.2))
            (m.runAt b.graph past cs) (m.runAt b'.graph past' cs) := by
  have hg := Graph.sameOutline_of_outline_eq houtline
  refine ⟨start_eq_of_sameOutline hconfig hg state, fun m e _ ↦ ⟨Machine.isAccepting_eq hg m, ?_⟩⟩
  intro past past' cs
  exact Machine.lockstep_runAt hg past past' m cs

/-- A path to an accepting state. -/
def quiet : Builder := (empty ⟨true, none⟩).declareAll [.path "a" "x" "b", .accept "b"]

/-- The same, but the state complains when it is entered. -/
def complaining : Builder :=
  (empty ⟨true, none⟩).declareAll
    [.path "a" "x" "b", .onEntry "b" (.failing "f" ⟨"no", []⟩), .accept "b"]

theorem lockstep_quiet_complaining :
    quiet.config = complaining.config ∧
      quiet.graph.describe.outline = complaining.graph.describe.outline ∧
      ∃ m, quiet.start "a" = .ok (m, .started "a") ∧ complaining.start "a" = .ok (m, .started "a") ∧
        Outcome.Lockstep quiet.graph complaining.graph [.transition "x", .finish]
          (m.runAt quiet.graph [] [(default, .transition "x"), (default, .finish)])
          (m.runAt complaining.graph [] [(default, .transition "x"), (default, .finish)]) := by
  have hconfig : quiet.config = complaining.config := rfl
  have houtline : quiet.graph.describe.outline = complaining.graph.describe.outline := rfl
  have hstart : quiet.start "a" = .ok (Machine.start quiet.config "a", .started "a") := rfl
  obtain ⟨hsame, hrun⟩ := callbacks_cannot_influence hconfig houtline "a"
  exact ⟨hconfig, houtline, _, hstart, hsame ▸ hstart, (hrun _ _ hstart).2 [] []
    [(default, .transition "x"), (default, .finish)]⟩

end Builder

end LabelAutomaton
