import LabelAutomaton.Proofs.Checkpoint.Continuation
import LabelAutomaton.Proofs.Checkpoint.Finished
import LabelAutomaton.Proofs.Machine.Independence
import LabelAutomaton.Proofs.Machine.Recorded
import LabelAutomaton.Proofs.Machine.Trace

/-!
# The log of a run

What a machine reports can be told from the calls, from what they returned and from where the
machine then stood: `Machine.account` is this, call by call and event by event, in words too,
without a look at the events that there are. `Machine.map_events_runAt` says that it comes to the
same.

The moves among the events are the moves of the run (`Machine.filterMap_move?_runAt`), and those
depend on no more than the position in which the run began (`Machine.moves_runAt_eq`). So the log of
a machine that records nothing, or keeps little, is still the history that it would have under
options that let it record everything (`Builder.log_tells_history`).
-/

set_option autoImplicit false

namespace LabelAutomaton

/-- The move that an event is about. -/
def Event.move? : Event → Option (StateName × Label × StateName)
  | moved source label target => some (source, label, target)
  | pathReplaced .. | started .. | blocked .. | callbackFailed .. | finished .. | resumed .. => none

/-- The move of a step, whenever it was made. -/
def Step.move (s : Step) : StateName × Label × StateName := (s.source, s.label, s.target)

namespace Machine

/-! ## One call -/

/-- What there is to report of a call, going by the machine before it, by its result and by the
machine after it: each event with its level and in words. A machine that has finished has nothing to
report. -/
def account (m : Machine) (c : Call) (o : Outcome) : List (Level × Event × String) :=
  if m.isFinished then []
  else
    match c with
    | .transition label =>
      let source := m.current
      match (Call.transition label).entered? o with
      | none => [(.trace, .blocked source label, s!"No transition from '{source}' on '{label}'")]
      | some target =>
        (.trace, .moved source label target, s!"Transition '{source}' --{label}--> '{target}'") ::
          match o.result with
          | .error (.callback _ failure) =>
            [(.warn, .callbackFailed target failure.message,
              s!"Entry callback for state '{target}' failed: {failure.message}")]
          | _ => []
    | .finish =>
      let state := o.machine.current
      match o.result with
      | .ok () => [(.debug, .finished state, s!"Machine finished in state '{state}'")]
      | .error _ => []

section Call

variable (g : Graph) (past : List Invocation) (now : Instant) (m : Machine) (c : Call)

/-- **A call reports what there is to report of it**, at the level that it asks for. -/
theorem map_events_call :
    (m.call g past now c).events.map (fun e ↦ (e.level, e, e.message)) =
      m.account c (m.call g past now c) := by
  have h := answers_call g past now m c
  generalize m.call g past now c = o at h
  cases h with
  | unusable c hstate => simp [account, isFinished, hstate]
  -- The texts agree as they stand: `simp` with `Event.message` would take them apart.
  | blocked hstate | moved hstate | failed hstate | accepted hstate | refused hstate =>
    simp only [account, isFinished, hstate]
    rfl

/-- The move that a call reports is the one that it makes. -/
theorem filterMap_move?_call :
    (m.call g past now c).events.filterMap Event.move? =
      ((c.step? m.current now (m.call g past now c)).map Step.move).toList := by
  have h := answers_call g past now m c
  generalize m.call g past now c = o at h
  cases h with
  | unusable c => cases c <;> simp [Call.step?, Call.entered?, Outcome.Followed]
  | blocked | moved | failed =>
    simp [Call.step?, Call.entered?, Outcome.Followed, move, Event.move?, Step.move]
  | accepted | refused => simp [Call.step?, Event.move?]

end Call

/-- A call on a machine that goes on leaves it so, or it ends the run and says nothing else. -/
theorem goesOn_or_ends (g : Graph) (past : List Invocation) (now : Instant) {m : Machine}
    (hactive : m.runState = .active) (c : Call) :
    let o := m.call g past now c
    o.machine.runState = .active ∧ (∀ e ∈ o.events, e.level ≠ .debug) ∨
      o.machine.runState = .finished ∧ o.events = [.finished o.machine.current] := by
  have h := answers_call g past now m c
  generalize m.call g past now c = o at h
  cases h with
  | unusable _ hstate =>
    rw [hactive] at hstate
    cases hstate
  | blocked | moved | failed | refused => exact Or.inl ⟨hactive, by simp [Event.level]⟩
  | accepted => exact Or.inr ⟨rfl, rfl⟩

theorem after_runAt_of_finished {m : Machine} (h : m.runState = .finished) (g : Graph)
    (past : List Invocation) (cs : List (Instant × Call)) : m.after (m.runAt g past cs) = m := by
  rw [runAt_of_finished h]
  induction cs with
  | nil => rfl
  | cons tc cs ih => rw [List.map_cons, after_cons, ih]

/-! ## A run -/

/-- What there is to report of each call of a run. -/
def accounts :
    Machine → List (Instant × Call) → List Outcome → List (List (Level × Event × String))
  | m, (_, c) :: cs, o :: os => m.account c o :: accounts o.machine cs os
  | _, _, _ => []

section Run

variable (g : Graph) (past : List Invocation) (m : Machine) (cs : List (Instant × Call))

/-- **The calls of a run report what there is to report of them.** -/
theorem map_events_runAt :
    (m.runAt g past cs).map (·.events.map fun e ↦ (e.level, e, e.message)) =
      m.accounts cs (m.runAt g past cs) := by
  induction cs generalizing past m with
  | nil => rfl
  | cons tc cs ih =>
    obtain ⟨now, c⟩ := tc
    rw [runAt, List.map_cons, map_events_call, ih, accounts]

/-- **The moves reported are the moves made.** -/
theorem filterMap_move?_runAt :
    ((m.runAt g past cs).flatMap (·.events)).filterMap Event.move? =
      (m.moves cs (m.runAt g past cs)).map Step.move := by
  induction cs generalizing past m with
  | nil => rfl
  | cons tc cs ih =>
    obtain ⟨now, c⟩ := tc
    rw [runAt, List.flatMap_cons, List.filterMap_append, filterMap_move?_call, ih, moves,
      List.map_append, Option.toList_map]

/-- **The end of a run is reported once**, and nothing is reported after it. -/
theorem exists_events_eq_append (hactive : m.runState = .active) :
    let last := m.after (m.runAt g past cs)
    ∃ before, (m.runAt g past cs).flatMap (·.events) =
        before ++ (if last.isFinished then [.finished last.current] else []) ∧
      ∀ e ∈ before, e.level ≠ .debug := by
  induction cs generalizing past m with
  | nil => exact ⟨[], by simp [runAt, isFinished, hactive], by simp⟩
  | cons tc cs ih =>
    obtain ⟨now, c⟩ := tc
    rw [runAt, List.flatMap_cons, after_cons]
    rcases goesOn_or_ends g past now hactive c with ⟨hstate, hlevels⟩ | ⟨hstate, hevents⟩
    · obtain ⟨before, hevents, hbefore⟩ := ih _ _ hstate
      refine ⟨(m.call g past now c).events ++ before, ?_,
        List.forall_mem_append.2 ⟨hlevels, hbefore⟩⟩
      rw [hevents, List.append_assoc]
    · have hfinished : (m.call g past now c).machine.isFinished = true := by
        rw [isFinished, hstate, beq_self_eq_true]
      refine ⟨[], ?_, by simp⟩
      rw [after_runAt_of_finished hstate, if_pos hfinished, hevents, runAt_of_finished hstate]
      simp

end Run

/-- What a call makes of the position does not depend on the calls that callbacks have had. -/
theorem position_call_eq {g : Graph} {m m' : Machine} (h : m.position = m'.position)
    (past past' : List Invocation) (now : Instant) (c : Call) :
    (m.call g past now c).machine.position = (m'.call g past' now c).machine.position := by
  have hseen := congrArg (·.2.1) (seen_call (g := g) h past now c)
  have hagree := agree_call (.refl g) past past' now m' c
  exact hseen.trans (congrArg position hagree.machine)

/-- **The moves of a run depend on the position in which it begins**, and not on what is recorded
or on what callbacks answer. -/
theorem moves_runAt_eq {g : Graph} {m m' : Machine} (h : m.position = m'.position)
    (past past' : List Invocation) (cs : List (Instant × Call)) :
    m.moves cs (m.runAt g past cs) = m'.moves cs (m'.runAt g past' cs) := by
  induction cs generalizing past past' m m' with
  | nil => rfl
  | cons tc cs ih =>
    obtain ⟨now, c⟩ := tc
    obtain ⟨hcurrent, hrunState⟩ := Position.mk.inj h
    have hentered : c.entered? (m.call g past now c) = c.entered? (m'.call g past' now c) := by
      ext state
      rw [entered?_call_eq_some_iff, entered?_call_eq_some_iff, hcurrent, hrunState]
    have hstep : c.step? m.current now (m.call g past now c) =
        c.step? m'.current now (m'.call g past' now c) := by
      rw [Call.step?.eq_def, Call.step?.eq_def, hentered, hcurrent]
    rw [runAt, runAt, moves, moves, hstep, ih (position_call_eq h past past' now c)]

end Machine

namespace Builder

/-- **The log and the history tell the same run.** Each call of a machine that was started reports
what there is to report of it, in its place and in these words: a label what became of it, with a
warning behind it if a callback has failed, and the finish that succeeds the state in which it does.
This last is the end of the log, which began with the start. The moves in the log are those in the
history of the machine that is started in the same state under options that let it record
everything, whatever the options of this one are. -/
theorem log_tells_history {b : Builder} {state : StateName} {m : Machine} {e : Event}
    (hstart : b.start state = .ok (m, e)) (past : List Invocation) (cs : List (Instant × Call)) :
    let outcomes := m.runAt b.graph past cs
    let log := outcomes.flatMap (·.events)
    let last := m.after outcomes
    (e.level, e, e.message) =
        (.debug, .started state, s!"Starting machine at state '{state}'") ∧
      outcomes.map (·.events.map fun e ↦ (e.level, e, e.message)) = m.accounts cs outcomes ∧
      (∃ before, log = before ++ (if last.isFinished then [.finished last.current] else []) ∧
        ∀ e ∈ before, e.level ≠ .debug) ∧
      ∃ m', Builder.start { b with config := ⟨true, none⟩ } state = .ok (m', e) ∧ ∀ past',
        (m'.after (m'.runAt b.graph past' cs)).history.steps.map Step.move =
          log.filterMap Event.move? := by
  intro outcomes log last
  obtain ⟨hcontains, rfl, rfl⟩ := start_eq_ok_iff.1 hstart
  have hactive : (Machine.start b.config state).runState = .active := rfl
  refine ⟨rfl, Machine.map_events_runAt .., Machine.exists_events_eq_append _ _ _ _ hactive,
    Machine.start ⟨true, none⟩ state, start_eq_ok_iff.2 ⟨hcontains, rfl, rfl⟩, fun past' ↦ ?_⟩
  have hposition : (Machine.start b.config state).position =
      (Machine.start ⟨true, none⟩ state).position := rfl
  rw [Machine.filterMap_move?_runAt, Machine.moves_runAt_eq hposition past past',
    Machine.history_runAt]
  exact congrArg (·.steps.map Step.move) (History.recordAll_empty none _)

/-- Back and forth between two states, one of which accepts while the other complains. Machines
remember no more than one move. -/
def grudging : Builder :=
  (empty ⟨true, some 1⟩).declareAll
    [.path "a" "x" "b", .path "b" "x" "a", .onEntry "a" (.failing "f" ⟨"no", []⟩), .accept "b"]

/-- Three moves, a label that leads nowhere, a finish that is refused, one that is not, and a label
after it. -/
def throughout : List (Instant × Call) :=
  [.transition "x", .transition "y", .transition "x", .finish, .transition "x", .finish,
    .transition "x"].map (default, ·)

theorem log_grudging :
    ∃ m m', grudging.start "a" = .ok (m, .started "a") ∧
      Builder.start { grudging with config := ⟨true, none⟩ } "a" = .ok (m', .started "a") ∧
      let outcomes := m.runAt grudging.graph [] throughout
      outcomes.map (·.events.map fun e ↦ (e.level, e, e.message)) =
        [[(.trace, .moved "a" "x" "b", "Transition 'a' --x--> 'b'")],
          [(.trace, .blocked "b" "y", "No transition from 'b' on 'y'")],
          [(.trace, .moved "b" "x" "a", "Transition 'b' --x--> 'a'"),
            (.warn, .callbackFailed "a" "no", "Entry callback for state 'a' failed: no")],
          [],
          [(.trace, .moved "a" "x" "b", "Transition 'a' --x--> 'b'")],
          [(.debug, .finished "b", "Machine finished in state 'b'")],
          []] ∧
      (m.after outcomes).history.size = 1 ∧
      (m'.after (m'.runAt grudging.graph [] throughout)).history.steps.map Step.move =
        [("a", "x", "b"), ("b", "x", "a"), ("a", "x", "b")] := by
  have hstart : grudging.start "a" = .ok (.start grudging.config "a", .started "a") := rfl
  obtain ⟨-, hevents, -, m', hstart', hhistory⟩ := log_tells_history hstart [] throughout
  refine ⟨_, m', hstart, hstart', hevents.trans (by decide +kernel), by decide, ?_⟩
  exact (hhistory []).trans (by decide)

end Builder

end LabelAutomaton
