import LabelAutomaton.Proofs.History.Kept
import LabelAutomaton.Proofs.History.Trail
import LabelAutomaton.Proofs.Machine.Reference

/-!
# The history of a run

The moves of a run are its transitions that were followed, each at its own time, whatever callbacks
said to them. A machine that records writes them to its history one by one
(`Machine.history_runAt`), and a machine that does not leaves its history alone.

The moves are a trail of transitions, from where the machine stood to where it stands
(`Machine.trail_moves`, `Machine.declares_moves`). A machine that was started and records keeps the
end of this trail, as long as the limit allows; so its steps, its labels and its path agree with
each other, with the graph and with the current state (`Builder.history_is_end_of_moves`).
-/

set_option autoImplicit false

namespace LabelAutomaton

/-- The label, if the call is one and was followed. -/
def Call.followed? : Call → Outcome → Option Label
  | transition label, o => if o.Followed then some label else none
  | finish, _ => none

/-- The step that the call made, if it was a label and was followed. -/
def Call.step? (c : Call) (source : StateName) (now : Instant) (o : Outcome) : Option Step :=
  match c with
  | .transition label => (c.entered? o).map fun target ↦ ⟨source, label, target, now⟩
  | .finish => none

namespace Machine

/-! ## One call -/

section Call

variable (g : Graph) (past : List Invocation) (now : Instant) (m : Machine) (c : Call)

theorem recording_call : (m.call g past now c).machine.recording = m.recording := by
  have h := answers_call g past now m c
  generalize m.call g past now c = o at h
  cases h <;> rfl

/-- **A call records its move**, if the machine records. -/
theorem history_call :
    (m.call g past now c).machine.history =
      if m.recording then m.history.recordAll (c.step? m.current now (m.call g past now c)).toList
      else m.history := by
  have h := answers_call g past now m c
  generalize m.call g past now c = o at h
  cases h with
  | unusable => cases c <;> simp [Call.step?, Call.entered?, Outcome.Followed, History.recordAll]
  | blocked => simp [Call.step?, Call.entered?, Outcome.Followed, History.recordAll]
  | accepted | refused => simp [Call.step?, History.recordAll]
  | moved | failed => simp [Call.step?, Call.entered?, Outcome.Followed, History.recordAll, move]

/-- A call makes the step of a transition and leads there, or it makes no step and the machine stays
where it is. The steps are those of the labels that are followed. -/
theorem step_or_stay :
    let o := m.call g past now c
    (∃ label target, c.followed? o = some label ∧ g.target? m.current label = some target ∧
        o.machine.current = target ∧
        c.step? m.current now o = some ⟨m.current, label, target, now⟩) ∨
      c.followed? o = none ∧ o.machine.current = m.current ∧ c.step? m.current now o = none := by
  have h := answers_call g past now m c
  generalize m.call g past now c = o at h
  cases h with
  | unusable c =>
    cases c <;> simp [Call.followed?, Call.step?, Call.entered?, Outcome.Followed]
  | blocked => simp [Call.followed?, Call.step?, Call.entered?, Outcome.Followed]
  | accepted | refused => exact Or.inr ⟨rfl, rfl, rfl⟩
  | @moved label target _ _ htarget _ | @failed label target _ _ _ htarget _ =>
    refine Or.inl ⟨label, target, ?_, htarget, rfl, ?_⟩
    · simp [Call.followed?, Outcome.Followed]
    · simp [Call.step?, Call.entered?, Outcome.Followed, move]

theorem trail_step? :
    Trail m.current (c.step? m.current now (m.call g past now c)).toList
      (m.call g past now c).machine.current := by
  obtain ⟨label, target, -, -, hcurrent, hstep⟩ | ⟨-, hcurrent, hstep⟩ :=
    step_or_stay g past now m c
  · rw [hstep, hcurrent]
    exact .cons rfl (.nil target)
  · rw [hstep, hcurrent]
    exact .nil m.current

theorem declares_step? :
    g.Declares (c.step? m.current now (m.call g past now c)).toList := by
  obtain ⟨label, target, -, htarget, -, hstep⟩ | ⟨-, -, hstep⟩ := step_or_stay g past now m c
  · rw [hstep]
    rintro step hmem
    obtain rfl := List.mem_singleton.1 hmem
    exact htarget
  · rw [hstep]
    exact fun _ hmem ↦ nomatch hmem

/-- The label of the step that a call makes is the one followed. -/
theorem map_label_step? :
    (c.step? m.current now (m.call g past now c)).map (·.label) =
      c.followed? (m.call g past now c) := by
  obtain ⟨label, target, hlabel, -, -, hstep⟩ | ⟨hnone, -, hstep⟩ := step_or_stay g past now m c
  · rw [hstep, hlabel, Option.map_some]
  · rw [hstep, hnone, Option.map_none]

theorem initial_call : (m.call g past now c).machine.initial = m.initial := by
  have h := answers_call g past now m c
  generalize m.call g past now c = o at h
  cases h <;> rfl

end Call

/-! ## A run -/

/-- The steps that calls with these outcomes have made, in order. -/
def moves : Machine → List (Instant × Call) → List Outcome → List Step
  | m, (now, c) :: cs, o :: os => (c.step? m.current now o).toList ++ moves o.machine cs os
  | _, _, _ => []

section Run

variable (g : Graph) (past : List Invocation) (m : Machine) (cs : List (Instant × Call))

/-- **A run records its moves**, if the machine records. -/
theorem history_runAt :
    (m.after (m.runAt g past cs)).history =
      if m.recording then m.history.recordAll (m.moves cs (m.runAt g past cs)) else m.history := by
  induction cs generalizing past m with
  | nil => simp [runAt, moves, History.recordAll]
  | cons tc cs ih =>
    obtain ⟨now, c⟩ := tc
    rw [runAt, after_cons, ih, moves, recording_call, history_call, History.recordAll_append]
    cases m.recording <;> rfl

/-- **The moves of a run are a trail** to where the machine stands at its end. -/
theorem trail_moves :
    Trail m.current (m.moves cs (m.runAt g past cs)) (m.after (m.runAt g past cs)).current := by
  induction cs generalizing past m with
  | nil => exact .nil m.current
  | cons tc cs ih =>
    obtain ⟨now, c⟩ := tc
    rw [runAt, moves, after_cons]
    exact (trail_step? g past now m c).append (ih _ _)

/-- The moves of a run are transitions of the graph. -/
theorem declares_moves : g.Declares (m.moves cs (m.runAt g past cs)) := by
  induction cs generalizing past m with
  | nil => exact fun _ hmem ↦ nomatch hmem
  | cons tc cs ih =>
    obtain ⟨now, c⟩ := tc
    rw [runAt, moves]
    exact List.forall_mem_append.2 ⟨declares_step? g past now m c, ih _ _⟩

/-- There is a move for each label that was followed, and no other. -/
theorem map_label_moves :
    (m.moves cs (m.runAt g past cs)).map (·.label) =
      ((cs.map (·.2)).zip (m.runAt g past cs)).filterMap fun (c, o) ↦ c.followed? o := by
  induction cs generalizing past m with
  | nil => rfl
  | cons tc cs ih =>
    obtain ⟨now, c⟩ := tc
    rw [runAt, moves, List.map_append, ih, ← Option.toList_map, map_label_step?, List.map_cons,
      List.zip_cons_cons, List.filterMap_cons]
    dsimp only
    cases c.followed? (m.call g past now c) <;> rfl

end Run

end Machine

namespace Builder

/-- **The history of a run is the end of its moves.** The moves are one for each label that was
followed, whatever callbacks said to it. A machine that records keeps as many of them as the limit
allows, the latest ones, and one that does not record keeps none. What is kept leads to the current
state, in steps, labels and path alike, and it leads from the initial state if nothing was given
up. -/
theorem history_is_end_of_moves {b : Builder} {state : StateName} {m : Machine} {e : Event}
    (hstart : b.start state = .ok (m, e)) (past : List Invocation) (cs : List (Instant × Call)) :
    let outcomes := m.runAt b.graph past cs
    let moves := m.moves cs outcomes
    let last := m.after outcomes
    moves.map (·.label) = (((cs.map (·.2)).zip outcomes).filterMap fun (c, o) ↦ c.followed? o) ∧
      last.history.steps =
        (if b.config.recordHistory then History.keep b.config.historyLimit moves else []) ∧
      (b.config.recordHistory → last.history.size =
        b.config.historyLimit.elim moves.length fun n ↦ min n.toNat moves.length) ∧
      last.history.AgreesWith b.graph last.current ∧
      (last.history.size = moves.length → ∀ first ∈ last.history.path.head?, first = state) := by
  intro outcomes moves last
  obtain ⟨-, rfl, -⟩ := start_eq_ok_iff.1 hstart
  have hsteps : last.history.steps =
      if b.config.recordHistory then History.keep b.config.historyLimit moves else [] := by
    rw [Machine.history_runAt]
    show (if b.config.recordHistory then _ else _ : History).steps = _
    split
    · exact congrArg (·.steps) (History.recordAll_empty _ moves)
    · rfl
  have htrail : Trail state moves last.current :=
    Machine.trail_moves b.graph past (.start b.config state) cs
  have hdeclares : b.graph.Declares moves :=
    Machine.declares_moves b.graph past (.start b.config state) cs
  have hsuffix : last.history.steps <:+ moves := by
    rw [hsteps]
    split
    · exact History.keep_suffix _ moves
    · exact List.nil_suffix
  obtain ⟨first, hkept⟩ := htrail.of_suffix hsuffix
  refine ⟨Machine.map_label_moves .., hsteps, fun hrecord ↦ ?_, ?_, fun hall first' hfirst ↦ ?_⟩
  · rw [History.size, hsteps, if_pos hrecord, History.length_keep]
  · exact hkept.agreesWith fun step hstep ↦ hdeclares step (hsuffix.subset hstep)
  · -- nothing was given up, so the trail kept is that of all moves
    have hwhole : last.history.steps = moves := hsuffix.eq_of_length hall
    rw [← hwhole] at htrail
    rw [htrail.path_eq] at hfirst
    split at hfirst
    · cases hfirst
    · exact (Option.some.inj hfirst).symm

/-- There and back, with a callback that complains of coming back. -/
def pendulum : Builder :=
  (empty ⟨true, some 2⟩).declareAll
    [.path "a" "x" "b", .path "b" "x" "a", .onEntry "a" (.failing "f" ⟨"no", []⟩)]

/-- Three moves, a label that leads nowhere and a finish that is refused. -/
def swings : List (Instant × Call) :=
  [.transition "x", .transition "y", .transition "x", .finish, .transition "x"].map (default, ·)

theorem history_swings :
    ∃ m, pendulum.start "a" = .ok (m, .started "a") ∧
      let last := m.after (m.runAt pendulum.graph [] swings)
      last.current = "b" ∧ last.history.size = 2 ∧ last.history.path = ["b", "a", "b"] ∧
        last.history.AgreesWith pendulum.graph "b" := by
  have hstart : pendulum.start "a" = .ok (.start pendulum.config "a", .started "a") := rfl
  obtain ⟨-, hsteps, -, hagrees, -⟩ := history_is_end_of_moves hstart [] swings
  refine ⟨_, hstart, by decide, ?_, ?_, hagrees⟩
  · rw [History.size, hsteps]
    decide
  · rw [History.path, hsteps]
    decide

end Builder

end LabelAutomaton
