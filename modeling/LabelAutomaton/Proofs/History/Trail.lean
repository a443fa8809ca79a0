import LabelAutomaton.Graph
import LabelAutomaton.History
import Mathlib.Data.List.Chain

/-!
# Trails

A list of steps is a `Trail` from one state to another when each step begins where the one before
has ended. Trails can be joined (`Trail.append`), and the end of a trail is a trail, wherever it
may begin (`Trail.of_suffix`); so what a history keeps of a trail is a trail again.

A history shows its steps in three ways. When the steps are a trail of transitions of a graph, the
three belong together (`Trail.agreesWith`): the labels lead through the graph along the path.
-/

set_option autoImplicit false

namespace LabelAutomaton

/-- The steps lead from the one state to the other, each from where the one before has led. -/
inductive Trail : StateName → List Step → StateName → Prop
  /-- No step leads nowhere else. -/
  | nil (state : StateName) : Trail state [] state
  /-- The first step, and then the others. -/
  | cons {first last : StateName} {step : Step} {rest : List Step} (hstep : step.source = first)
      (hrest : Trail step.target rest last) : Trail first (step :: rest) last

namespace Trail

variable {first middle last : StateName} {steps steps' : List Step}

theorem append (h : Trail first steps middle) (h' : Trail middle steps' last) :
    Trail first (steps ++ steps') last := by
  induction h with
  | nil => exact h'
  | cons hstep _ ih => exact .cons hstep (ih h')

theorem exists_of_append (h : Trail first (steps ++ steps') last) :
    ∃ middle, Trail first steps middle ∧ Trail middle steps' last := by
  induction steps generalizing first with
  | nil => exact ⟨first, .nil first, h⟩
  | cons step rest ih =>
    cases h with
    | cons hstep hrest =>
      obtain ⟨middle, hbefore, hbehind⟩ := ih hrest
      exact ⟨middle, .cons hstep hbefore, hbehind⟩

/-- The end of a trail is a trail. -/
theorem of_suffix (h : Trail first steps last) (hsuffix : steps' <:+ steps) :
    ∃ first', Trail first' steps' last := by
  obtain ⟨before, rfl⟩ := hsuffix
  obtain ⟨middle, -, hbehind⟩ := h.exists_of_append
  exact ⟨middle, hbehind⟩

theorem isChain (h : Trail first steps last) :
    steps.IsChain fun step next ↦ step.target = next.source := by
  induction h with
  | nil => exact .nil
  | cons _ hrest ih =>
    cases hrest with
    | nil => exact .singleton _
    | cons hnext _ => exact .cons_cons hnext.symm ih

theorem target_getLast? (h : Trail first steps last) :
    ∀ step ∈ steps.getLast?, step.target = last := by
  induction h with
  | nil => exact fun _ hstep ↦ nomatch hstep
  | cons _ hrest ih =>
    cases hrest with
    | nil =>
      rintro _ ⟨rfl⟩
      rfl
    | cons =>
      rw [List.getLast?_cons_cons]
      exact ih

end Trail

/-! ## Along a trail through a graph -/

/-- The states that the labels lead through, the first included, if they all lead somewhere. -/
def Graph.visits? (g : Graph) : StateName → List Label → Option (List StateName)
  | state, [] => some [state]
  | state, label :: rest =>
    (g.target? state label).bind fun target ↦ (g.visits? target rest).map (state :: ·)

/-- The steps are transitions of the graph. -/
def Graph.Declares (g : Graph) (steps : List Step) : Prop :=
  ∀ step ∈ steps, g.target? step.source step.label = some step.target

namespace Trail

variable {g : Graph} {first last : StateName} {steps : List Step}

/-- The labels of a trail lead along it. -/
theorem visits?_labels (h : Trail first steps last) (hg : g.Declares steps) :
    g.visits? first (steps.map (·.label)) = some (first :: steps.map (·.target)) := by
  induction h with
  | nil => rfl
  | cons hstep _ ih =>
    obtain ⟨htarget, hrest⟩ := List.forall_mem_cons.1 hg
    rw [List.map_cons, Graph.visits?, ← hstep, htarget, Option.bind_some, ih hrest]
    rfl

/-- The path of a trail begins where the trail does. -/
theorem path_eq {h : History} (htrail : Trail first h.steps last) :
    h.path = if h.steps = [] then [] else first :: h.steps.map (·.target) := by
  rw [History.path]
  cases hsteps : h.steps with
  | nil => rfl
  | cons step rest =>
    rw [hsteps] at htrail
    cases htrail with
    | cons hstep _ => rw [← hstep, if_neg (List.cons_ne_nil step rest)]

/-- The states along a trail end where the trail does. -/
theorem singleton_last_suffix (h : Trail first steps last) :
    [last] <:+ first :: steps.map (·.target) := by
  induction h with
  | nil => exact List.suffix_refl _
  | cons _ _ ih => exact ih.trans (List.suffix_cons _ _)

/-- The path of the end of a trail is the end of the states along the trail. -/
theorem path_suffix {h : History} (htrail : Trail first steps last) (hsuffix : h.steps <:+ steps) :
    h.path <:+ first :: steps.map (·.target) := by
  obtain ⟨before, rfl⟩ := hsuffix
  obtain ⟨middle, hbefore, hkept⟩ := htrail.exists_of_append
  rw [hkept.path_eq, List.map_append, ← List.cons_append]
  split
  · exact List.nil_suffix
  · exact List.suffix_append_self_iff.2 hbefore.singleton_last_suffix

end Trail

/-- The steps of a history, its labels and its path tell of one way through the graph, which ends at
the state. -/
structure History.AgreesWith (h : History) (g : Graph) (last : StateName) : Prop where
  /-- Each step begins where the one before has ended. -/
  isChain : h.steps.IsChain fun step next ↦ step.target = next.source
  /-- The last step ends at the state. -/
  target_getLast? : ∀ step ∈ h.steps.getLast?, step.target = last
  /-- Every step is a transition of the graph. -/
  declares : g.Declares h.steps
  /-- The path has one state more than there are steps, unless there is no step. -/
  length_path : h.path.length = if h.steps = [] then 0 else h.steps.length + 1
  /-- From the first state of the path the labels lead along the path. -/
  visits?_labels : ∀ first ∈ h.path.head?, g.visits? first h.labels = some h.path

/-- **A trail of transitions is the same way in all three views** of a history. -/
theorem Trail.agreesWith {h : History} {g : Graph} {first last : StateName}
    (htrail : Trail first h.steps last) (hg : g.Declares h.steps) : h.AgreesWith g last := by
  have hpath := htrail.path_eq
  refine ⟨htrail.isChain, htrail.target_getLast?, hg, ?_, fun first' hfirst ↦ ?_⟩
  · rw [hpath]
    split <;> simp
  · by_cases hnil : h.steps = []
    · rw [if_pos hnil] at hpath
      rw [hpath] at hfirst
      cases hfirst
    · rw [if_neg hnil] at hpath
      rw [hpath] at hfirst ⊢
      obtain rfl := Option.some.inj hfirst
      exact htrail.visits?_labels hg

end LabelAutomaton
