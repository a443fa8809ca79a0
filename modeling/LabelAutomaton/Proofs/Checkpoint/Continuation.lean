import LabelAutomaton.Proofs.Checkpoint.Resume
import LabelAutomaton.Proofs.Machine.Fleet
import LabelAutomaton.Proofs.Machine.Recorded

/-!
# A resumed run goes on

What a machine does depends on its position, the graph and the calls that callbacks have had, and
on nothing else: two machines in one position show the same outcomes (`Machine.seen_runAt`). So a
machine that was resumed goes on like one that is started in the saved state. Its history is the
end of what was saved and then recorded, however often it was cut on the way
(`Builder.resume_is_exact`).
-/

set_option autoImplicit false

namespace LabelAutomaton

/-- What the outcome shows: the result, the position, the invocations and the events. -/
def Outcome.seen (o : Outcome) :
    Except MachineError Unit × Position × List Invocation × List Event :=
  (o.result, o.machine.position, o.invocations, o.events)

namespace Machine

variable {g : Graph} {m m' : Machine}

/-- **A call shows the same on machines in one position.** -/
theorem seen_call (h : m.position = m'.position) (past : List Invocation) (now : Instant)
    (c : Call) : (m.call g past now c).seen = (m'.call g past now c).seen := by
  obtain ⟨hcurrent, hrunState⟩ := Position.mk.inj h
  have hanswers := answers_call g past now m c
  generalize m.call g past now c = o at hanswers
  -- what sends one machine one of the six ways sends the other the same way
  cases hanswers with
  | unusable c hstate =>
    rw [Answers.call_eq (.unusable c (hrunState ▸ hstate))]
    simp only [Outcome.seen, h]
  | blocked hstate htarget =>
    rw [Answers.call_eq (.blocked (hrunState ▸ hstate) (hcurrent ▸ htarget))]
    simp only [Outcome.seen, h, hcurrent]
  | moved hstate htarget hcalls =>
    rw [Answers.call_eq (.moved (hrunState ▸ hstate) (hcurrent ▸ htarget) hcalls)]
    simp only [Outcome.seen, position, move, hcurrent, hrunState]
  | failed hstate htarget hcalls =>
    rw [Answers.call_eq (.failed (hrunState ▸ hstate) (hcurrent ▸ htarget) hcalls)]
    simp only [Outcome.seen, position, move, hcurrent, hrunState]
  | accepted hstate haccepting =>
    rw [Answers.call_eq (.accepted (hrunState ▸ hstate) (hcurrent ▸ haccepting))]
    simp only [Outcome.seen, position, hcurrent]
  | refused hstate haccepting =>
    rw [Answers.call_eq (.refused (hrunState ▸ hstate) (hcurrent ▸ haccepting))]
    simp only [Outcome.seen, h, hcurrent]

/-- **A run shows the same on machines in one position.** -/
theorem seen_runAt (h : m.position = m'.position) (past : List Invocation)
    (cs : List (Instant × Call)) :
    (m.runAt g past cs).map Outcome.seen = (m'.runAt g past cs).map Outcome.seen := by
  induction cs generalizing past m m' with
  | nil => rfl
  | cons tc cs ih =>
    obtain ⟨now, c⟩ := tc
    have hseen := seen_call (g := g) h past now c
    have hposition : (m.call g past now c).machine.position =
        (m'.call g past now c).machine.position := congrArg (·.2.1) hseen
    have hinvocations : (m.call g past now c).invocations = (m'.call g past now c).invocations :=
      congrArg (·.2.2.1) hseen
    rw [runAt, runAt, List.map_cons, List.map_cons, hseen, hinvocations, ih hposition]

end Machine

namespace Builder

variable (b : Builder) (c : Checkpoint)

/-- What comes of a checkpoint, by the first check that fails. -/
theorem map_fst_resume :
    (b.resume c).map Prod.fst =
      if c.version ≠ 1 then .error (.unsupportedVersion c.version)
      else if ¬b.graph.contains c.initial then .error (.unknownState c.initial)
      else if ¬b.graph.contains c.current then .error (.unknownState c.current)
      else .ok (b.resumed c) := by
  rw [resume_eq, ite_not, ite_not, ite_not]
  simp only [apply_ite (Except.map Prod.fst)]
  rfl

/-- The history of a resumed machine is the end of the steps saved and then made. -/
theorem history_runAt_resumed (past : List Invocation) (cs : List (Instant × Call)) :
    ((b.resumed c).after ((b.resumed c).runAt b.graph past cs)).history =
      ⟨History.keep b.config.historyLimit
        (c.history.steps ++ if b.config.recordHistory then
          (b.resumed c).moves cs ((b.resumed c).runAt b.graph past cs) else []),
        b.config.historyLimit⟩ := by
  rw [Machine.history_runAt, ← History.recordAll_keep]
  show (if b.config.recordHistory then _ else _) = _
  cases b.config.recordHistory <;> rfl

/-- **Resuming is exact.** It fails for the version, else for the initial state, else for the
current state, else not at all, and nothing else of the checkpoint matters than what is then in the
machine: the states and the run state saved, and the end of the steps saved. No callback is called.
If the run goes on, it shows what a machine started in the saved state shows, and its history is
the end of the steps saved and then made, or of those saved if nothing is recorded. -/
theorem resume_is_exact :
    (b.resume c).map Prod.fst =
        (if c.version ≠ 1 then .error (.unsupportedVersion c.version)
        else if ¬b.graph.contains c.initial then .error (.unknownState c.initial)
        else if ¬b.graph.contains c.current then .error (.unknownState c.current)
        else .ok ⟨c.initial, c.current, c.runState, b.config.recordHistory,
          ⟨History.keep b.config.historyLimit c.history.steps, b.config.historyLimit⟩⟩) ∧
      (∀ id time savedLimit,
        (b.resume { c with id, time, history := ⟨c.history.steps, savedLimit⟩ }).map Prod.fst =
          (b.resume c).map Prod.fst) ∧
      (∀ past machines name,
        ((Fleet.mk b past machines).obey name (.resume c)).1.calls = past) ∧
      ∀ m e, b.resume c = .ok (m, e) → c.runState = .active →
        ∃ fresh, b.start c.current = .ok (fresh, .started c.current) ∧ ∀ past cs,
          let outcomes := m.runAt b.graph past cs
          outcomes.map Outcome.seen = (fresh.runAt b.graph past cs).map Outcome.seen ∧
            (m.after outcomes).history =
              ⟨History.keep b.config.historyLimit
                (c.history.steps ++ if b.config.recordHistory then m.moves cs outcomes else []),
                b.config.historyLimit⟩ := by
  refine ⟨b.map_fst_resume c, fun id time savedLimit ↦ ?_, fun past machines name ↦ ?_,
    fun m e hresume hactive ↦ ?_⟩
  · exact (b.map_fst_resume _).trans (b.map_fst_resume c).symm
  · rcases (Fleet.mk b past machines).called_or_silent name (.resume c) with
      ⟨_, _, _, -, horder⟩ | ⟨-, -, hsilent, -⟩
    · cases horder
    · rw [Fleet.calls_obey, hsilent, List.append_nil]
  · obtain ⟨-, hcurrent, rfl⟩ := of_resume_eq_ok hresume
    have hposition : (b.resumed c).position = (Machine.start b.config c.current).position :=
      congrArg (Position.mk c.current) hactive
    refine ⟨Machine.start b.config c.current, if_pos hcurrent, fun past cs ↦ ?_⟩
    exact ⟨Machine.seen_runAt hposition past cs, b.history_runAt_resumed c past cs⟩

/-- A builder whose machines remember two moves. -/
def brief : Builder :=
  (empty ⟨true, some 2⟩).declareAll [.path "a" "x" "b", .path "b" "x" "a"]

/-- A checkpoint of another builder, which knew other states and remembered more. -/
def foreign : Checkpoint :=
  ⟨1, "c", default, "a", "b", .active,
    ⟨[⟨"z", "w", "a", default⟩, ⟨"a", "x", "b", default⟩, ⟨"b", "y", "b", default⟩], some 7⟩⟩

theorem resume_foreign :
    ∃ m e fresh, brief.resume foreign = .ok (m, e) ∧ foreign.runState = .active ∧
      brief.start "b" = .ok (fresh, .started "b") ∧
      (m.runAt brief.graph [] [(default, .transition "x")]).map Outcome.seen =
        (fresh.runAt brief.graph [] [(default, .transition "x")]).map Outcome.seen ∧
      (m.after (m.runAt brief.graph [] [(default, .transition "x")])).history =
        ⟨[⟨"b", "y", "b", default⟩, ⟨"b", "x", "a", default⟩], some 2⟩ := by
  have hresume : brief.resume foreign = .ok (brief.resumed foreign, .resumed "c" "b" .active) := rfl
  obtain ⟨-, -, -, hgoesOn⟩ := resume_is_exact brief foreign
  obtain ⟨fresh, hfresh, hrun⟩ := hgoesOn _ _ hresume rfl
  obtain ⟨hseen, hhistory⟩ := hrun [] [(default, .transition "x")]
  exact ⟨_, _, fresh, hresume, rfl, hfresh, hseen, hhistory.trans (by decide)⟩

end Builder

end LabelAutomaton
