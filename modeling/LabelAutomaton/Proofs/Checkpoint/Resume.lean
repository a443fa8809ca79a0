import LabelAutomaton.Checkpoint
import LabelAutomaton.Proofs.History.Kept
import LabelAutomaton.Proofs.Machine.Call

/-!
# Resuming gives the machine back

A machine over a builder is `Reachable` when it was started or resumed there and then called, over
and over. All such machines are `Settled`: their states are the builder's, they record as the
builder says, and their history is within the builder's limit. The checkpoint of a settled machine
has all that `Builder.resume` takes from a checkpoint, and what it takes from the builder is as it
was, so the machine itself comes back (`Machine.Settled.resume_checkpoint`).
-/

set_option autoImplicit false

namespace LabelAutomaton

/-- A machine that a builder can bring about, whatever checkpoint it may begin from. -/
inductive Machine.Reachable (b : Builder) : Machine → Prop
  /-- The machine was started. -/
  | start {state : StateName} {m : Machine} {e : Event} (h : b.start state = .ok (m, e)) :
      Reachable b m
  /-- The machine was resumed. -/
  | resume {c : Checkpoint} {m : Machine} {e : Event} (h : b.resume c = .ok (m, e)) :
      Reachable b m
  /-- The machine was called. -/
  | call {m : Machine} (hm : Reachable b m) (past : List Invocation) (now : Instant) (c : Call) :
      Reachable b (m.call b.graph past now c).machine

/-- What a machine and its builder have in common. -/
structure Machine.Settled (b : Builder) (m : Machine) : Prop where
  /-- The run began in a state of the builder. -/
  initial : b.graph.contains m.initial = true
  /-- It stands in a state of the builder. -/
  current : b.graph.contains m.current = true
  /-- Moves are recorded if the builder says so. -/
  recording : m.recording = b.config.recordHistory
  /-- The history has the builder's limit. -/
  limit : m.history.limit = b.config.historyLimit
  /-- The history is within it. -/
  within : m.history.Within

/-! ## Resuming -/

namespace Builder

variable {b : Builder}

/-- The machine that takes up the run of a checkpoint. Its states and run state are those of the
checkpoint, and the rest follows the builder. -/
def resumed (b : Builder) (c : Checkpoint) : Machine :=
  ⟨c.initial, c.current, c.runState, b.config.recordHistory,
    ⟨History.keep b.config.historyLimit c.history.steps, b.config.historyLimit⟩⟩

/-- **Resuming is three checks** in this order, and then no more can go wrong. -/
theorem resume_eq (c : Checkpoint) :
    b.resume c =
      if c.version = Checkpoint.supportedVersion then
        if b.graph.contains c.initial then
          if b.graph.contains c.current then
            .ok (b.resumed c, .resumed c.id c.current c.runState)
          else .error (.unknownState c.current)
        else .error (.unknownState c.initial)
      else .error (.unsupportedVersion c.version) := by
  have hhistory : b.config.emptyHistory.recordAll c.history.steps =
      ⟨History.keep b.config.historyLimit c.history.steps, b.config.historyLimit⟩ :=
    History.recordAll_empty _ _
  rw [resume, Checkpoint.checkVersion]
  by_cases hversion : c.version = Checkpoint.supportedVersion
  · rw [if_pos hversion, if_pos hversion]
    show (b.resolve c.initial >>= _) = _
    rw [resolve]
    by_cases hinitial : b.graph.contains c.initial = true
    · rw [if_pos hinitial, if_pos hinitial]
      show (b.resolve c.current >>= _) = _
      rw [resolve]
      by_cases hcurrent : b.graph.contains c.current = true
      · rw [if_pos hcurrent, if_pos hcurrent, hhistory]
        rfl
      · rw [if_neg hcurrent, if_neg hcurrent]
        rfl
    · rw [if_neg hinitial, if_neg hinitial]
      rfl
  · rw [if_neg hversion, if_neg hversion]
    rfl

theorem resume_eq_ok {c : Checkpoint} (hversion : c.version = Checkpoint.supportedVersion)
    (hinitial : b.graph.contains c.initial = true) (hcurrent : b.graph.contains c.current = true) :
    b.resume c = .ok (b.resumed c, .resumed c.id c.current c.runState) := by
  rw [resume_eq, if_pos hversion, if_pos hinitial, if_pos hcurrent]

theorem of_resume_eq_ok {c : Checkpoint} {m : Machine} {e : Event} (h : b.resume c = .ok (m, e)) :
    b.graph.contains c.initial = true ∧ b.graph.contains c.current = true ∧ m = b.resumed c := by
  rw [resume_eq] at h
  split at h
  · split at h
    · rename_i hinitial
      split at h
      · rename_i hcurrent
        exact ⟨hinitial, hcurrent, (Prod.mk.inj (Except.ok.inj h)).1.symm⟩
      · cases h
    · cases h
  · cases h

end Builder

/-! ## Settled machines -/

namespace Machine

variable {b : Builder} {m : Machine}

theorem settled_of_start {state : StateName} {e : Event} (h : b.start state = .ok (m, e)) :
    m.Settled b := by
  obtain ⟨hcontains, rfl, -⟩ := Builder.start_eq_ok_iff.1 h
  exact ⟨hcontains, hcontains, rfl, rfl, History.within_empty _⟩

theorem settled_of_resume {c : Checkpoint} {e : Event} (h : b.resume c = .ok (m, e)) :
    m.Settled b := by
  obtain ⟨hinitial, hcurrent, rfl⟩ := Builder.of_resume_eq_ok h
  exact ⟨hinitial, hcurrent, rfl, rfl, fun n hn ↦ History.length_keep_le _ _ hn⟩

theorem Settled.move (hm : m.Settled b) (now : Instant) {label : Label} {target : StateName}
    (htarget : b.graph.target? m.current label = some target) :
    (m.move now label target).Settled b := by
  refine ⟨hm.initial, Graph.contains_target htarget, hm.recording, ?_, ?_⟩
  · rw [Machine.move]
    dsimp only
    split
    · rw [History.limit_record, hm.limit]
    · exact hm.limit
  · rw [Machine.move]
    dsimp only
    split
    · exact hm.within.record _
    · exact hm.within

/-- Calls keep a machine settled. -/
theorem Settled.call (hm : m.Settled b) (past : List Invocation) (now : Instant) (c : Call) :
    (m.call b.graph past now c).machine.Settled b := by
  have h := answers_call b.graph past now m c
  generalize m.call b.graph past now c = o at h
  cases h with
  | unusable | blocked | refused => exact hm
  | moved hstate htarget hcalls => exact hm.move now htarget
  | failed hstate htarget hcalls => exact hm.move now htarget
  | accepted hstate haccepting => exact ⟨hm.initial, hm.current, hm.recording, hm.limit, hm.within⟩

/-- **Every machine over a builder is settled.** -/
theorem Reachable.settled (h : m.Reachable b) : m.Settled b := by
  induction h with
  | start h => exact settled_of_start h
  | resume h => exact settled_of_resume h
  | call _ past now c ih => exact ih.call past now c

/-- **A settled machine comes back** from its own checkpoint. -/
theorem Settled.resume_checkpoint (hm : m.Settled b) (id : String) (time : Instant) :
    b.resume (m.checkpoint id time) = .ok (m, .resumed id m.current m.runState) := by
  have hresumed : b.resumed (m.checkpoint id time) = m := by
    have hsteps : History.keep b.config.historyLimit m.history.steps = m.history.steps := by
      rw [← hm.limit]
      exact hm.within.keep_steps
    rw [Builder.resumed, checkpoint]
    dsimp only
    rw [hsteps, ← hm.limit, ← hm.recording]
  rw [Builder.resume_eq_ok rfl hm.initial hm.current, hresumed]
  rfl

end Machine

end LabelAutomaton
