import LabelAutomaton.Proofs.Checkpoint.Parking
import LabelAutomaton.Proofs.Machine.Recorded
import LabelAutomaton.Proofs.Machine.Trace

/-!
# Runs that are handed over

A run can be handed over from builder to builder: a checkpoint of its machine is resumed over a
builder that knows the states and may have options of its own. `Machine.Lineage` holds of the
machines that a run has come to in this way, together with the legs of the run; a leg is a move,
and whether it was recorded.

A builder that does not record lets its machines keep the steps that were saved, but adds none. So
what is in a history is the end of the legs that were recorded (`Machine.Lineage.steps_suffix`), and
there can be a gap in it (`Machine.history_can_have_a_gap`). There is none if the last legs, as many
as are in the history, were all recorded (`Machine.history_ends_run`).
-/

set_option autoImplicit false

namespace LabelAutomaton

/-- A move of a run, and whether it was recorded. -/
structure Leg where
  /-- The move. -/
  step : Step
  /-- Whether the machine that made it has recorded it. -/
  recorded : Bool

namespace Leg

/-- All moves. -/
def steps (legs : List Leg) : List Step := legs.map (·.step)

/-- The moves that were recorded. -/
def recordedSteps (legs : List Leg) : List Step := steps (legs.filter (·.recorded))

theorem steps_append (legs legs' : List Leg) : steps (legs ++ legs') = steps legs ++ steps legs' :=
  List.map_append

theorem recordedSteps_append (legs legs' : List Leg) :
    recordedSteps (legs ++ legs') = recordedSteps legs ++ recordedSteps legs' := by
  rw [recordedSteps, List.filter_append, steps_append, recordedSteps, recordedSteps]

/-- The end of the moves that were recorded is the end of all moves, if as many moves at the end
were all recorded. -/
theorem suffix_steps {legs : List Leg} {kept : List Step} (h : kept <:+ recordedSteps legs)
    (hall : ∀ leg ∈ legs.rtake kept.length, leg.recorded = true) : kept <:+ steps legs := by
  have hrtake : legs.rtake kept.length <:+ legs := List.drop_suffix _ legs
  have hlength : (legs.rtake kept.length).length = kept.length := by
    have hle : kept.length ≤ legs.length := by
      calc kept.length ≤ (recordedSteps legs).length := h.length_le
        _ = (legs.filter (·.recorded)).length := List.length_map _
        _ ≤ legs.length := List.length_filter_le _ _
    rw [List.rtake, List.length_drop]
    omega
  -- both are ends of the moves that were recorded, and of one length
  have hrecorded : steps (legs.rtake kept.length) <:+ recordedSteps legs := by
    have hfilter := hrtake.filter (·.recorded)
    rw [List.filter_eq_self.2 hall] at hfilter
    exact hfilter.map _
  have hkept : kept = steps (legs.rtake kept.length) := by
    refine (List.suffix_of_suffix_length_le h hrecorded ?_).eq_of_length ?_
    · rw [steps, List.length_map, hlength]
    · rw [steps, List.length_map, hlength]
  rw [hkept]
  exact hrtake.map _

end Leg

namespace Machine

/-- The legs of a call: one for its move, if it makes one. -/
def legs (m : Machine) (now : Instant) (c : Call) (o : Outcome) : List Leg :=
  (c.step? m.current now o).toList.map (⟨·, m.recording⟩)

/-- A machine over a builder, at the end of a run with these legs. All builders that had part in the
run are among the given ones. -/
inductive Lineage (Among : Builder → Prop) : Builder → Machine → List Leg → Prop
  /-- The run begins. -/
  | start {b : Builder} {state : StateName} {m : Machine} {e : Event} (hamong : Among b)
      (hstart : b.start state = .ok (m, e)) : Lineage Among b m []
  /-- The machine is called. -/
  | call {b : Builder} {m : Machine} {run : List Leg} (hm : Lineage Among b m run)
      (past : List Invocation) (now : Instant) (c : Call) :
      Lineage Among b (m.call b.graph past now c).machine
        (run ++ m.legs now c (m.call b.graph past now c))
  /-- The machine is parked, and another builder takes it up by way of the format. -/
  | handOver {b b' : Builder} {m m' : Machine} {run : List Leg} {e : Event}
      (hm : Lineage Among b m run) (hamong : Among b') (id : String) (time : Instant)
      {via : Option Format} (hfits : via = some .binary → (m.checkpoint id time).Fits)
      (htakeUp : b'.takeUp m id time via = .ok (m', e)) : Lineage Among b' m' run

section Call

variable (g : Graph) (past : List Invocation) (now : Instant) (m : Machine) (c : Call)

theorem steps_legs (o : Outcome) :
    Leg.steps (m.legs now c o) = (c.step? m.current now o).toList := by
  rw [Leg.steps, legs, List.map_map]
  exact List.map_id _

theorem recordedSteps_legs (o : Outcome) :
    Leg.recordedSteps (m.legs now c o) =
      if m.recording then (c.step? m.current now o).toList else [] := by
  cases hrecording : m.recording <;> cases hstep : c.step? m.current now o <;>
    simp [Leg.recordedSteps, Leg.steps, legs, hrecording, hstep]

end Call

namespace Lineage

variable {Among : Builder → Prop} {b b' : Builder} {m : Machine} {run : List Leg}

theorem settled (h : m.Lineage Among b run) : m.Settled b := by
  induction h with
  | start _ hstart => exact settled_of_start hstart
  | call _ past now c ih => exact ih.call past now c
  | handOver _ _ _ _ hfits htakeUp =>
    exact settled_of_resume (Builder.resume_of_takeUp hfits htakeUp)

/-- **The legs of a run are a trail** from where it began to where it stands. -/
theorem trail (h : m.Lineage Among b run) : Trail m.initial (Leg.steps run) m.current := by
  induction h with
  | start _ hstart =>
    obtain ⟨-, rfl, -⟩ := Builder.start_eq_ok_iff.1 hstart
    exact .nil _
  | @call b m _ _ past now c ih =>
    rw [Leg.steps_append, steps_legs, initial_call]
    exact ih.append (trail_step? b.graph past now m c)
  | handOver _ _ _ _ hfits htakeUp ih =>
    obtain ⟨-, -, rfl⟩ := Builder.of_resume_eq_ok (Builder.resume_of_takeUp hfits htakeUp)
    exact ih

/-- **A history is the end of what was recorded**, whoever has recorded it. -/
theorem steps_suffix (h : m.Lineage Among b run) : m.history.steps <:+ Leg.recordedSteps run := by
  induction h with
  | start _ hstart =>
    obtain ⟨-, rfl, -⟩ := Builder.start_eq_ok_iff.1 hstart
    exact List.nil_suffix
  | @call b m run hm past now c ih =>
    rw [Leg.recordedSteps_append, recordedSteps_legs, history_call]
    split
    · rw [History.steps_recordAll hm.settled.within]
      exact (History.keep_suffix _ _).trans (List.suffix_append_self_iff.2 ih)
    · rwa [List.append_nil]
  | handOver _ _ _ _ hfits htakeUp ih =>
    obtain ⟨-, -, rfl⟩ := Builder.of_resume_eq_ok (Builder.resume_of_takeUp hfits htakeUp)
    exact (History.keep_suffix _ _).trans ih

/-- One more move. -/
theorem move (hm : m.Lineage Among b run) (now : Instant) (hactive : m.runState = .active)
    {label : Label} {target : StateName} (htarget : b.graph.target? m.current label = some target) :
    (m.move now label target).Lineage Among b
      (run ++ [⟨⟨m.current, label, target, now⟩, m.recording⟩]) := by
  have hcall := hm.call [] now (.transition label)
  have hmachine : (m.call b.graph [] now (.transition label)).machine = m.move now label target :=
    machine_transition_of_target? hactive htarget
  rwa [hmachine, legs, Call.step?, entered?_transition hactive htarget] at hcall

/-- One more builder. -/
theorem resumed (hm : m.Lineage Among b run) (hamong : Among b') (id : String) (time : Instant)
    (via : Option Format) (hfits : via = some .binary → (m.checkpoint id time).Fits)
    (hinitial : b'.graph.contains m.initial = true)
    (hcurrent : b'.graph.contains m.current = true) :
    (b'.resumed (m.checkpoint id time)).Lineage Among b' run := by
  have htakeUp := Builder.takeUp_eq_resume b' m id time hfits
  rw [Builder.resume_eq_ok rfl hinitial hcurrent] at htakeUp
  exact hm.handOver hamong id time hfits htakeUp

end Lineage

end Machine

/-- The builder declares just this, with options of its own. -/
def Builder.IsVariant (ds : List Declaration) (b : Builder) : Prop :=
  ∃ config, b = (Builder.empty config).declareAll ds

/-- There and back. -/
def seesaw : List Declaration := [.path "a" "x" "b", .path "b" "x" "a"]

/-- There. -/
def forth : Step := ⟨"a", "x", "b", default⟩

/-- And back. -/
def back : Step := ⟨"b", "x", "a", default⟩

/-- There, back and there again, with a machine that does not record on the way back. -/
def threeLegs : List Leg := [⟨forth, true⟩, ⟨back, false⟩, ⟨forth, true⟩]

namespace Machine

/-- The machine that makes the third leg may have any limit. -/
theorem exists_lineage_seesaw (limit : Option UInt64) :
    ∃ m : Machine, m.Lineage (Builder.IsVariant seesaw)
        ((Builder.empty ⟨true, limit⟩).declareAll seesaw) threeLegs ∧
      m.history = ⟨History.keep limit [forth, forth], limit⟩ := by
  let b (config : Config) : Builder := (Builder.empty config).declareAll seesaw
  have hb (config : Config) : (b config).IsVariant seesaw := ⟨config, rfl⟩
  have hforth (config : Config) : (b config).graph.target? "a" "x" = some "b" := rfl
  have hback (config : Config) : (b config).graph.target? "b" "x" = some "a" := rfl
  have hstart : (b ⟨true, none⟩).start "a" = .ok (start ⟨true, none⟩ "a", .started "a") := rfl
  have hfirst := (Lineage.start (hb _) hstart).move default rfl (hforth _)
  have hsecond := (hfirst.resumed (hb ⟨false, none⟩) "p" default (some .json) nofun rfl rfl).move
    default rfl (hback _)
  have hthird := (hsecond.resumed (hb ⟨true, limit⟩) "q" default (some .binary)
    (fun _ ↦ by decide) rfl rfl).move default rfl (hforth _)
  exact ⟨_, hthird, History.recordAll_keep limit [forth] [forth]⟩

/-- **A history is the end of the run**, if the last legs, as many as are in the history, were all
recorded. In any case it is the end of the legs that were recorded. -/
theorem history_ends_run {Among : Builder → Prop} {b : Builder} {m : Machine} {run : List Leg}
    (h : m.Lineage Among b run) :
    Trail m.initial (Leg.steps run) m.current ∧
      m.history.steps <:+ Leg.recordedSteps run ∧
      ((∀ leg ∈ run.rtake m.history.size, leg.recorded = true) →
        m.history.steps <:+ Leg.steps run ∧
          (m.history.steps.IsChain fun step next ↦ step.target = next.source) ∧
          (∀ step ∈ m.history.steps.getLast?, step.target = m.current) ∧
          m.history.path <:+ m.initial :: (Leg.steps run).map (·.target)) := by
  refine ⟨h.trail, h.steps_suffix, fun hall ↦ ?_⟩
  have hsuffix : m.history.steps <:+ Leg.steps run := Leg.suffix_steps h.steps_suffix hall
  obtain ⟨first, hkept⟩ := h.trail.of_suffix hsuffix
  exact ⟨hsuffix, hkept.isChain, hkept.target_getLast?, h.trail.path_suffix hsuffix⟩

theorem history_ends_run_seesaw :
    ∃ m : Machine, m.Lineage (Builder.IsVariant seesaw)
        ((Builder.empty ⟨true, some 1⟩).declareAll seesaw) threeLegs ∧
      (∀ leg ∈ threeLegs.rtake m.history.size, leg.recorded = true) ∧
      m.history.steps = [forth] ∧ m.history.steps <:+ Leg.steps threeLegs := by
  obtain ⟨m, hm, hhistory⟩ := exists_lineage_seesaw (some 1)
  have hsteps : m.history.steps = [forth] := by
    rw [hhistory]
    rfl
  have hall : ∀ leg ∈ threeLegs.rtake m.history.size, leg.recorded = true := by
    rw [History.size, hsteps]
    simp [threeLegs, List.rtake]
  obtain ⟨-, -, hend⟩ := history_ends_run hm
  exact ⟨m, hm, hall, hsteps, (hend hall).1⟩

/-- **A history can have a gap.** Of three moves the second is not recorded, so in the history the
third begins elsewhere than where the first has ended. -/
theorem history_can_have_a_gap :
    ¬∀ (ds : List Declaration) (b : Builder) (m : Machine) (run : List Leg),
      m.Lineage (Builder.IsVariant ds) b run → m.history.steps ≠ [] →
        (m.history.steps.IsChain fun step next ↦ step.target = next.source) ∧
          ∀ step ∈ m.history.steps.getLast?, step.target = m.current := by
  intro h
  obtain ⟨m, hm, hhistory⟩ := exists_lineage_seesaw none
  have hsteps : m.history.steps = [forth, forth] := by
    rw [hhistory]
    rfl
  obtain ⟨hchain, -⟩ := h seesaw _ m _ hm (by simp [hsteps])
  rw [hsteps] at hchain
  cases hchain with
  | cons_cons hforth _ => exact absurd hforth (by decide)

end Machine

end LabelAutomaton
