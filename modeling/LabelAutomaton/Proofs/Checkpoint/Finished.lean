import LabelAutomaton.Proofs.Checkpoint.Parking
import LabelAutomaton.Proofs.Machine.Reference
import Mathlib.Logic.Relation

/-!
# A finished run stays finished

A machine whose run has finished answers nothing any more. The run does not come to life again by
being parked either: a `Berth` is where a run can be, with a machine or in a checkpoint, and
`Berth.Next` leads from one to the next by a call, by parking, by way of a written form, or by
resuming over whatever builder accepts the checkpoint. No such step moves a run that has finished
(`Berth.Next.position_eq`), so every machine that it comes to refuses all calls, as the first one
does (`Machine.finished_is_absorbing`).
-/

set_option autoImplicit false

namespace LabelAutomaton

/-! ## One call -/

namespace Machine

/-- A machine may finish just if finishing succeeds. -/
theorem isAccepting_iff_result_finish (g : Graph) (m : Machine) :
    m.isAccepting g = true ↔ (m.finish g).result = .ok () := by
  have h : Answers g [] default m .finish (m.finish g) := answers_call ..
  generalize m.finish g = o at h ⊢
  rw [isAccepting, isFinished]
  cases h with
  | unusable _ hstate => simp [hstate]
  | accepted hstate haccepting => simp [hstate, haccepting]
  | refused hstate haccepting => simp [hstate, haccepting]

/-- An error is misuse just if the run has finished before. -/
theorem isMisuse_iff_isFinished {g : Graph} {past : List Invocation} {now : Instant} {m : Machine}
    {c : Call} {e : MachineError} (h : (m.call g past now c).result = .error e) :
    e.isMisuse = true ↔ m.isFinished = true := by
  have hanswers := answers_call g past now m c
  generalize m.call g past now c = o at h hanswers
  rw [isFinished]
  cases hanswers with
  | unusable _ hstate =>
    obtain rfl := Except.error.inj h
    simp [hstate, MachineError.isMisuse]
  | blocked hstate | failed hstate | refused hstate =>
    obtain rfl := Except.error.inj h
    simp [hstate, MachineError.isMisuse]
  | moved | accepted => cases h

/-- **A finished machine answers nothing**, however often and with whatever it is called. -/
theorem runAt_of_finished {m : Machine} (h : m.runState = .finished) (g : Graph)
    (past : List Invocation) (cs : List (Instant × Call)) :
    m.runAt g past cs = cs.map fun _ ↦ ⟨m, .error .unusable, [], []⟩ := by
  induction cs generalizing past with
  | nil => rfl
  | cons tc cs ih =>
    obtain ⟨now, c⟩ := tc
    rw [runAt, (Answers.unusable c h).call_eq, List.map_cons]
    exact congrArg _ (ih _)

end Machine

/-! ## From berth to berth -/

/-- Where a run can be. -/
inductive Berth where
  /-- A machine walks over the graph of a builder. -/
  | machine (b : Builder) (m : Machine)
  /-- The run is parked. -/
  | parked (c : Checkpoint)

namespace Berth

/-- Where the run stands. -/
def position : Berth → Position
  | machine _ m => m.position
  | parked c => ⟨c.current, c.runState⟩

/-- One step of a run. -/
inductive Next : Berth → Berth → Prop
  /-- The machine is called. -/
  | call (b : Builder) (m : Machine) (past : List Invocation) (now : Instant) (c : Call) :
      Next (.machine b m) (.machine b (m.call b.graph past now c).machine)
  /-- A checkpoint is taken. -/
  | park (b : Builder) (m : Machine) (id : String) (now : Instant) :
      Next (.machine b m) (.parked (m.checkpoint id now))
  /-- The checkpoint is written in the format and read. -/
  | reload {c c' : Checkpoint} {format : Format} (hfits : format = .binary → c.Fits)
      (hread : (c.write format).read = .ok c') : Next (.parked c) (.parked c')
  /-- A builder takes up the run. -/
  | resume {b : Builder} {c : Checkpoint} {m : Machine} {e : Event}
      (hresume : b.resume c = .ok (m, e)) : Next (.parked c) (.machine b m)

/-- No step moves a run that has finished. -/
theorem Next.position_eq {x y : Berth} (h : x.Next y)
    (hfinished : x.position.runState = .finished) : y.position = x.position := by
  cases h with
  | call b m past now c => rw [(Machine.Answers.unusable c hfinished).call_eq]
  | park => rfl
  | @reload c _ _ hfits hread =>
    rw [Checkpoint.read_write hfits, Checkpoint.checkVersion] at hread
    split at hread
    · obtain rfl := Except.ok.inj hread
      rfl
    · cases hread
  | resume hresume =>
    obtain ⟨-, -, rfl⟩ := Builder.of_resume_eq_ok hresume
    rfl

/-- A run that has finished stays where it has finished, wherever it is brought. -/
theorem position_eq_of_reflTransGen {x y : Berth} (h : Relation.ReflTransGen Next x y)
    (hfinished : x.position.runState = .finished) : y.position = x.position := by
  induction h with
  | refl => rfl
  | tail _ hstep ih =>
    have hnext := hstep.position_eq (by rw [ih, hfinished])
    rw [hnext, ih]

end Berth

namespace Machine

/-- **Finishing is for good.** A machine may finish just if finishing succeeds, and its errors are
misuse just if it has finished before. Once it has, all machines to which the run comes from there,
by calls and checkpoints, in written form and over other builders, stand where it has finished; they
refuse all calls, with no callback run and nothing changed, and may not finish again. -/
theorem finished_is_absorbing (b : Builder) (m : Machine) :
    (m.isAccepting b.graph = true ↔ (m.finish b.graph).result = .ok ()) ∧
      (∀ past now c e, (m.call b.graph past now c).result = .error e →
        (e.isMisuse = true ↔ m.isFinished = true)) ∧
      ((m.finish b.graph).result = .ok () → ∀ b' m',
        Relation.ReflTransGen Berth.Next (.machine b (m.finish b.graph).machine)
            (.machine b' m') →
          m'.current = m.current ∧ m'.isFinished = true ∧ m'.isAccepting b'.graph = false ∧
            ∀ past cs, m'.runAt b'.graph past cs =
              cs.map fun _ ↦ ⟨m', .error .unusable, [], []⟩) := by
  refine ⟨isAccepting_iff_result_finish _ m, fun _ _ _ _ ↦ isMisuse_iff_isFinished, ?_⟩
  intro hok b' m' hrun
  have hposition : (m.finish b.graph).machine.position = ⟨m.current, .finished⟩ := by
    have h : Answers b.graph [] default m .finish (m.finish b.graph) := answers_call ..
    generalize m.finish b.graph = o at h hok ⊢
    cases h with
    | accepted => rfl
    | unusable | refused => cases hok
  have hend : m'.position = ⟨m.current, .finished⟩ :=
    (Berth.position_eq_of_reflTransGen hrun (congrArg Position.runState hposition)).trans hposition
  have hfinished : m'.runState = .finished := congrArg Position.runState hend
  have hisFinished : m'.isFinished = true := by rw [isFinished, hfinished, beq_self_eq_true]
  refine ⟨congrArg Position.state hend, hisFinished, ?_, runAt_of_finished hfinished _⟩
  rw [isAccepting, hisFinished, Bool.not_true, Bool.false_and]

/-- A builder that knows the states, but accepts in none. -/
def tireless : Builder := (Builder.empty .standard).declareAll [.path "a" "x" "b"]

theorem finished_over_tireless :
    let m : Machine := .start Builder.forgetful.config "b"
    let m' : Machine := ⟨"b", "b", .finished, false, ⟨[], none⟩⟩
    (m.finish Builder.forgetful.graph).result = .ok () ∧
      Relation.ReflTransGen Berth.Next
        (.machine Builder.forgetful (m.finish Builder.forgetful.graph).machine)
        (.machine tireless m') ∧
      m'.current = "b" ∧ m'.isAccepting tireless.graph = false ∧
      m'.runAt tireless.graph [] [(default, .transition "x"), (default, .finish)] =
        [⟨m', .error .unusable, [], []⟩, ⟨m', .error .unusable, [], []⟩] := by
  intro m m'
  have hok : (m.finish Builder.forgetful.graph).result = .ok () := rfl
  let c : Checkpoint := ⟨1, "p", default, "b", "b", .finished, ⟨[], some 1⟩⟩
  have hpark : Berth.Next
      (.machine Builder.forgetful (m.finish Builder.forgetful.graph).machine) (.parked c) :=
    .park _ _ "p" default
  have hreload (format : Format) : Berth.Next (.parked c) (.parked c) :=
    have hfits : format = .binary → c.Fits := fun _ ↦ by decide
    .reload hfits (Checkpoint.read_write hfits)
  have hresume : tireless.resume c = .ok (m', .resumed "p" "b" .finished) := rfl
  have hrun := (((Relation.ReflTransGen.single hpark).tail (hreload .json)).tail
    (hreload .binary)).tail (.resume hresume)
  obtain ⟨hcurrent, -, haccepting, hcalls⟩ :=
    (finished_is_absorbing Builder.forgetful m).2.2 hok tireless m' hrun
  exact ⟨hok, hrun, hcurrent, haccepting, hcalls [] _⟩

end Machine

end LabelAutomaton
