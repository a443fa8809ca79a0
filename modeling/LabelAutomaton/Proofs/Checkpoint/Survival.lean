import LabelAutomaton.Proofs.Builder.Registered
import LabelAutomaton.Proofs.Checkpoint.Resume
import LabelAutomaton.Proofs.Machine.Recorded
import LabelAutomaton.Proofs.Machine.Trace

/-!
# Checkpoints survive the growth of their builder

A checkpoint is taken of a machine, then more is declared to its builder, and then the checkpoint
is resumed. The machine comes back as it was, since its states are still there. What it does from
there on it would have done before, as far as the labels still lead where they have led: it enters
the same states, and at each of them it runs the old callbacks before the new ones
(`Builder.checkpoint_survives_growth`).
-/

set_option autoImplicit false

namespace LabelAutomaton

open Automaton

/-- A machine that a builder has started, and that was called since then. -/
inductive Machine.Driven (b : Builder) : Machine → Prop
  /-- The machine was started. -/
  | start {state : StateName} {m : Machine} {e : Event} (h : b.start state = .ok (m, e)) :
      Driven b m
  /-- The machine was called. -/
  | call {m : Machine} (hm : Driven b m) (past : List Invocation) (now : Instant) (c : Call) :
      Driven b (m.call b.graph past now c).machine

/-- The outcome of a call that leads to the state: callbacks are called as for an entry, and the
result is what they say. -/
structure Outcome.Enters (g : Graph) (past : List Invocation) (state : StateName) (o : Outcome) :
    Prop where
  /-- The machine stands in the state, and goes on. -/
  position : o.machine.position = ⟨state, .active⟩
  /-- The callbacks of the state are called. -/
  invocations : o.invocations = Entry.invocations g ⟨state, past⟩
  /-- The result is theirs. -/
  result : o.result = Entry.result g ⟨state, past⟩

theorem Outcome.Enters.current {g : Graph} {past : List Invocation} {state : StateName}
    {o : Outcome} (h : o.Enters g past state) : o.machine.current = state :=
  congrArg Position.state h.position

/-- The outcomes of calls lead to the states one by one. -/
inductive Outcome.EnterAll (g : Graph) :
    List Invocation → List StateName → List Outcome → Prop
  /-- There are no calls. -/
  | nil (past : List Invocation) : EnterAll g past [] []
  /-- The first call leads to the first state, and the others follow from there. -/
  | cons {past : List Invocation} {state : StateName} {states : List StateName} {o : Outcome}
      {os : List Outcome} (hfirst : o.Enters g past state)
      (hrest : EnterAll g (past ++ o.invocations) states os) :
      EnterAll g past (state :: states) (o :: os)

namespace Machine

namespace Driven

variable {b : Builder} {m : Machine}

theorem reachable (hm : m.Driven b) : m.Reachable b := by
  induction hm with
  | start h => exact .start h
  | call _ past now c ih => exact ih.call past now c

/-- A run ends where its builder accepts. -/
theorem isAccepting (hm : m.Driven b) (hstate : m.runState = .finished) :
    b.graph.isAccepting m.current = true := by
  induction hm with
  | start h =>
    obtain ⟨-, rfl, -⟩ := Builder.start_eq_ok_iff.1 h
    cases hstate
  | @call m _ past now c ih =>
    have h := answers_call b.graph past now m c
    generalize m.call b.graph past now c = o at h hstate
    cases h with
    | unusable | blocked | refused => exact ih hstate
    | moved hactive | failed hactive => exact absurd (hactive.symm.trans hstate) (by decide)
    | accepted _ haccepting => exact haccepting

theorem of_mem_runAt (hm : m.Driven b) (past : List Invocation) (cs : List (Instant × Call)) :
    ∀ o ∈ m.runAt b.graph past cs, o.machine.Driven b :=
  forall_mem_runAt (fun past now _ c hm ↦ hm.call past now c) past cs hm

end Driven

/-! ## Labels that are followed -/

section Call

variable {g : Graph} {past : List Invocation} {now : Instant} {m : Machine} {label : Label}
  {target : StateName} (hactive : m.runState = .active)
  (htarget : g.target? m.current label = some target)

include hactive htarget

theorem step?_transition :
    (Call.transition label).step? m.current now (m.call g past now (.transition label)) =
      some ⟨m.current, label, target, now⟩ := by
  rw [Call.step?, entered?_transition hactive htarget]
  rfl

/-- A label that leads to a state enters it. -/
theorem enters_transition : (m.call g past now (.transition label)).Enters g past target := by
  have hmachine : (m.call g past now (.transition label)).machine = m.move now label target :=
    machine_transition_of_target? hactive htarget
  have hentered : (Call.transition label).entered? (m.call g past now (.transition label)) =
      some target := entered?_transition hactive htarget
  obtain ⟨state, hstate, hinvocations, hresult⟩ | ⟨hnone, -, -⟩ :=
    m.entry_or_silence g past now (.transition label)
  · obtain rfl := Option.some.inj (hentered.symm.trans hstate)
    exact ⟨by rw [hmachine, position_move hactive], hinvocations, hresult⟩
  · rw [hentered] at hnone
    cases hnone

end Call

/-- **Labels that still lead where they have led enter the same states**, whatever was called
before, at whatever time. -/
theorem enterAll_runAt {g g' : Graph} {ds : List Declaration} (hg : g.GrownBy ds g')
    {m m' : Machine} (hposition : m.position = m'.position) {word : List Label}
    {cs cs' : List (Instant × Call)} (hcs : cs.map (·.2) = word.map .transition)
    (hcs' : cs'.map (·.2) = word.map .transition) (past past' : List Invocation)
    (hfollowed : ∀ o ∈ m.runAt g past cs, o.Followed)
    (hkept : ∀ step ∈ m.moves cs (m.runAt g past cs), ∀ target,
      (ofDeclarations ds).target? step.source step.label = some target → target = step.target) :
    Outcome.EnterAll g' past' ((m.runAt g past cs).map (·.machine.current))
      (m'.runAt g' past' cs') := by
  induction word generalizing m m' cs cs' past past' with
  | nil =>
    obtain rfl := List.map_eq_nil_iff.1 hcs
    obtain rfl := List.map_eq_nil_iff.1 hcs'
    exact .nil past'
  | cons label word ih =>
    obtain ⟨⟨now, _⟩, cs, rfl, rfl, hword⟩ := List.map_eq_cons_iff.1 hcs
    obtain ⟨⟨now', _⟩, cs', rfl, rfl, hword'⟩ := List.map_eq_cons_iff.1 hcs'
    obtain ⟨hfirst, hrest⟩ := List.forall_mem_cons.1 hfollowed
    obtain ⟨target, hactive, htarget⟩ := exists_of_followed hfirst
    rw [runAt, moves, step?_transition hactive htarget] at hkept
    obtain ⟨hfirstKept, hrestKept⟩ := List.forall_mem_append.1 hkept
    have htarget' : g'.target? m.current label = some target :=
      hg.target?_eq_some htarget (hfirstKept _ (List.mem_singleton_self _))
    obtain ⟨hcurrent, hrunState⟩ := Position.mk.inj hposition
    rw [hcurrent] at htarget'
    -- so the label enters the same state over both graphs
    have henters : (m.call g past now (.transition label)).Enters g past target :=
      enters_transition hactive htarget
    have henters' : (m'.call g' past' now' (.transition label)).Enters g' past' target :=
      enters_transition (hrunState ▸ hactive) htarget'
    rw [runAt, runAt, List.map_cons, henters.current]
    exact .cons henters'
      (ih (henters.position.trans henters'.position.symm) hword hword' _ _ hrest hrestKept)

/-- A machine stays settled when more is declared, for its states are still there. -/
theorem Settled.declareAll {b : Builder} {m : Machine} (hm : m.Settled b)
    (ds : List Declaration) : m.Settled (b.declareAll ds) := by
  have hgrown := b.grownBy_declareAll ds
  have hconfig : (b.declareAll ds).config = b.config := Builder.config_declareAll b ds
  refine ⟨?_, ?_, ?_, ?_, hm.within⟩
  · exact (hgrown.contains _).2 (Or.inr hm.initial)
  · exact (hgrown.contains _).2 (Or.inr hm.current)
  · rw [hconfig, hm.recording]
  · rw [hconfig, hm.limit]

end Machine

namespace Builder

variable {b : Builder} {m : Machine}

/-- **Checkpoints survive the growth of their builder.** Whatever is declared after a machine was
parked, the machine comes back as it was; what was accepting is so still, and a run that has ended
stands in such a state. A word that was followed before, by labels that in the end lead nowhere
else, leads to the same states. At each of them callbacks are called as for an entry: the old ones
in their order and then the new ones, up to the first that fails. -/
theorem checkpoint_survives_growth (hm : m.Driven b) (ds : List Declaration) :
    let b' := b.declareAll ds
    (∀ id time,
      b'.resume (m.checkpoint id time) = .ok (m, .resumed id m.current m.runState)) ∧
    (∀ state, b.graph.isAccepting state = true → b'.graph.isAccepting state = true) ∧
    (m.runState = .finished →
      b.graph.isAccepting m.current = true ∧ b'.graph.isAccepting m.current = true) ∧
    ∀ (word : List Label) (cs cs' : List (Instant × Call)) (past past' : List Invocation),
      cs.map (·.2) = word.map .transition → cs'.map (·.2) = word.map .transition →
      let old := m.runAt b.graph past cs
      (∀ o ∈ old, o.Followed) →
      (∀ step ∈ m.moves cs old, ∀ target,
        (ofDeclarations ds).target? step.source step.label = some target →
          target = step.target) →
      let visited := old.map (·.machine.current)
      Outcome.EnterAll b'.graph past' visited (m.runAt b'.graph past' cs') ∧
        ∀ state ∈ visited, b'.graph.callbacks state =
          b.graph.callbacks state ++ ds.filterMap (Declaration.adds? state) := by
  intro b'
  have hgrown : b.graph.GrownBy ds b'.graph := b.grownBy_declareAll ds
  have hsettled : m.Settled b' := hm.reachable.settled.declareAll ds
  refine ⟨hsettled.resume_checkpoint, hgrown.isAccepting, fun hfinished ↦ ?_, ?_⟩
  · have haccepting := hm.isAccepting hfinished
    exact ⟨haccepting, hgrown.isAccepting _ haccepting⟩
  · intro word cs cs' past past' hcs hcs' old hfollowed hkept visited
    refine ⟨?_, fun state hstate ↦ ?_⟩
    · exact Machine.enterAll_runAt hgrown rfl hcs hcs' past past' hfollowed hkept
    · obtain ⟨o, ho, rfl⟩ := List.mem_map.1 hstate
      exact hgrown.callbacks _ (hm.of_mem_runAt past cs o ho).reachable.settled.current

/-- One path, to a state with one callback. -/
def cottage : Builder :=
  (empty .standard).declareAll [.path "a" "x" "b", .onEntry "b" (.succeeding "f")]

/-- The path is replaced and then restored, and the state gets a callback that fails. -/
def extension : List Declaration :=
  [.path "a" "x" "c", .path "a" "x" "b", .onEntry "b" (.failing "g" ⟨"no", []⟩)]

theorem checkpoint_survives_extension :
    let m := Machine.start cottage.config "a"
    let b' := cottage.declareAll extension
    m.Driven cottage ∧
      b'.resume (m.checkpoint "c" default) = .ok (m, .resumed "c" "a" .active) ∧
      Outcome.EnterAll b'.graph [] ["b"] (m.runAt b'.graph [] [(default, .transition "x")]) ∧
      (b'.graph.callbacks "b").map (·.tag) = ["f", "g"] := by
  intro m b'
  have hstart : cottage.start "a" = .ok (m, .started "a") := rfl
  have hm : m.Driven cottage := .start hstart
  let cs : List (Instant × Call) := [(default, .transition "x")]
  have hfollowed : ∀ o ∈ m.runAt cottage.graph [] cs, o.Followed := by
    intro o ho
    obtain rfl := List.mem_singleton.1 ho
    exact Or.inl rfl
  have hkept : ∀ step ∈ m.moves cs (m.runAt cottage.graph [] cs), ∀ target,
      (ofDeclarations extension).target? step.source step.label = some target →
        target = step.target := by
    have hmoves : m.moves cs (m.runAt cottage.graph [] cs) = [⟨"a", "x", "b", default⟩] := by
      decide
    have hlast : (ofDeclarations extension).target? "a" "x" = some "b" := rfl
    rw [hmoves]
    intro step hstep target htarget
    obtain rfl := List.mem_singleton.1 hstep
    exact Option.some.inj (htarget.symm.trans hlast)
  obtain ⟨hback, -, -, hword⟩ := checkpoint_survives_growth hm extension
  obtain ⟨henter, hcallbacks⟩ := hword ["x"] cs cs [] [] rfl rfl hfollowed hkept
  refine ⟨hm, hback "c" default, henter, ?_⟩
  rw [hcallbacks "b" (by decide)]
  rfl

end Builder

end LabelAutomaton
