import LabelAutomaton.Proofs.Checkpoint.Binary
import LabelAutomaton.Proofs.Checkpoint.Grammar
import LabelAutomaton.Proofs.Checkpoint.Resume
import LabelAutomaton.Session.Command

/-!
# Parking is invisible

A run may be parked at any point: a checkpoint is taken, perhaps written and read again, and the
run is taken up from it by a machine that was not there before. `Builder.relay` is a run with such
breaks. As every machine comes back from its checkpoint, and the checkpoint from either written
form, a relay gives what the calls alone would have given (`Builder.parking_is_invisible`).
-/

set_option autoImplicit false

namespace LabelAutomaton

/-- What is read when the checkpoint is written in the format, or the checkpoint itself if it is
not written at all. -/
def Checkpoint.through (c : Checkpoint) : Option Format → Except CheckpointError Checkpoint
  | none => .ok c
  | some format => (c.write format).read

/-- What is written is read again, and then the version is looked at. Lengths are written in bytes
only in the binary format. -/
theorem Checkpoint.read_write {c : Checkpoint} {format : Format}
    (hfits : format = .binary → c.Fits) : (c.write format).read = c.checkVersion := by
  match format with
  | .json => exact ofJson_eq_checkVersion c
  | .binary =>
    have hread := ofBytes_eq_checkVersion (takes_readBytes (hfits rfl)) []
    rwa [List.append_nil] at hread

theorem Checkpoint.through_eq_checkVersion {c : Checkpoint} {via : Option Format}
    (hversion : c.version = supportedVersion) (hfits : via = some .binary → c.Fits) :
    c.through via = .ok c := by
  have hcheck : c.checkVersion = .ok c := if_pos hversion
  match via with
  | none => rfl
  | some format =>
    exact (read_write fun hformat ↦ hfits (congrArg some hformat)).trans hcheck

/-- A call, or a break. -/
inductive Turn where
  /-- The machine is called. -/
  | call (c : Call)
  /-- The machine is parked, and taken up again by way of the format. -/
  | park (id : String) (time : Instant) (via : Option Format)

namespace Turn

/-- The call, if there is one. -/
def call? : Turn → Option Call
  | call c => some c
  | park .. => none

/-- The calls alone. -/
def calls (turns : List Turn) : List Call := turns.filterMap call?

@[simp] theorem calls_cons_call (c : Call) (turns : List Turn) :
    calls (.call c :: turns) = c :: calls turns := rfl

@[simp] theorem calls_cons_park (id : String) (time : Instant) (via : Option Format)
    (turns : List Turn) : calls (.park id time via :: turns) = calls turns := rfl

end Turn

namespace Builder

/-- The machine that goes on from the checkpoint of the given one. -/
def takeUp (b : Builder) (m : Machine) (id : String) (time : Instant) (via : Option Format) :
    Except CheckpointError (Machine × Event) := do
  let c ← (m.checkpoint id time).through via
  b.resume c

/-- A run with breaks: the outcomes of its calls, and the machine at its end. -/
def relay (b : Builder) (now : Instant) :
    List Invocation → Machine → List Turn → Except CheckpointError (List Outcome × Machine)
  | _, m, [] => .ok ([], m)
  | past, m, .call c :: rest =>
    let outcome := m.call b.graph past now c
    (relay b now (past ++ outcome.invocations) outcome.machine rest).map fun (outcomes, last) ↦
      (outcome :: outcomes, last)
  | past, m, .park id time via :: rest => do
    let (m, _) ← b.takeUp m id time via
    relay b now past m rest

/-- At each break that goes by way of bytes, the lengths in the checkpoint are numbers of 64 bits.
The machine is the one that the calls before lead to. -/
def Fitting (b : Builder) (now : Instant) (past : List Invocation) (m : Machine)
    (turns : List Turn) : Prop :=
  ∀ before id time rest, turns = before ++ .park id time (some .binary) :: rest →
    ((m.after (m.run b.graph now past (Turn.calls before))).checkpoint id time).Fits

variable {b : Builder} {now : Instant} {past : List Invocation} {m : Machine}

/-- What is written is read again, so the builder gets the checkpoint itself. -/
theorem takeUp_eq_resume (b : Builder) (m : Machine) (id : String) (time : Instant)
    {via : Option Format} (hfits : via = some .binary → (m.checkpoint id time).Fits) :
    b.takeUp m id time via = b.resume (m.checkpoint id time) := by
  have hthrough : (m.checkpoint id time).through via = .ok (m.checkpoint id time) :=
    Checkpoint.through_eq_checkVersion rfl hfits
  rw [takeUp, hthrough]
  rfl

theorem resume_of_takeUp {b : Builder} {m m' : Machine} {e : Event} {id : String} {time : Instant}
    {via : Option Format} (hfits : via = some .binary → (m.checkpoint id time).Fits)
    (h : b.takeUp m id time via = .ok (m', e)) :
    b.resume (m.checkpoint id time) = .ok (m', e) :=
  (takeUp_eq_resume b m id time hfits).symm.trans h

theorem takeUp_eq_ok (hm : m.Settled b) (id : String) (time : Instant) {via : Option Format}
    (hfits : via = some .binary → (m.checkpoint id time).Fits) :
    b.takeUp m id time via = .ok (m, .resumed id m.current m.runState) :=
  (takeUp_eq_resume b m id time hfits).trans (hm.resume_checkpoint id time)

/-! What fits along the way fits along the rest of the way. -/

theorem Fitting.of_call {c : Call} {rest : List Turn} (h : b.Fitting now past m (.call c :: rest)) :
    b.Fitting now (past ++ (m.call b.graph past now c).invocations)
      (m.call b.graph past now c).machine rest := by
  rintro before id time rest' rfl
  have hfits := h (.call c :: before) id time rest' rfl
  rwa [Turn.calls_cons_call, Machine.run_cons, Machine.after_cons] at hfits

theorem Fitting.of_park {id : String} {time : Instant} {via : Option Format} {rest : List Turn}
    (h : b.Fitting now past m (.park id time via :: rest)) : b.Fitting now past m rest := by
  rintro before id' time' rest' rfl
  exact h (.park id time via :: before) id' time' rest' rfl

theorem Fitting.fits_of_park {id : String} {time : Instant} {via : Option Format}
    {rest : List Turn} (h : b.Fitting now past m (.park id time via :: rest))
    (hvia : via = some .binary) : (m.checkpoint id time).Fits := by
  subst hvia
  exact h [] id time rest rfl

/-- A relay of a settled machine leads to where the calls alone lead. -/
theorem relay_eq_run (hm : m.Settled b) {turns : List Turn} (h : b.Fitting now past m turns) :
    b.relay now past m turns =
      .ok (m.run b.graph now past (Turn.calls turns),
        m.after (m.run b.graph now past (Turn.calls turns))) := by
  induction turns generalizing past m with
  | nil => rfl
  | cons turn rest ih =>
    cases turn with
    | call c =>
      rw [relay, ih (hm.call past now c) h.of_call]
      simp only [Except.map, Turn.calls_cons_call, Machine.run_cons, Machine.after_cons]
    | park id time via =>
      rw [relay, takeUp_eq_ok hm id time h.fits_of_park]
      exact ih hm h.of_park

/-- **Parking is invisible.** Whatever machine a builder can bring about, it comes back from its
checkpoint, whether that was kept, or written in either format and read. So a run may be parked
as often and wherever one likes: the outcomes of its calls and the machine at its end are those of
the run without breaks. -/
theorem parking_is_invisible (hm : m.Reachable b) :
    (∀ id time via, (via = some .binary → (m.checkpoint id time).Fits) →
      b.takeUp m id time via = .ok (m, .resumed id m.current m.runState)) ∧
      ∀ now past turns, b.Fitting now past m turns →
        b.relay now past m turns =
          .ok (m.run b.graph now past (Turn.calls turns),
            m.after (m.run b.graph now past (Turn.calls turns))) := by
  refine ⟨fun id time via hfits ↦ ?_, fun now past turns hturns ↦ ?_⟩
  · exact takeUp_eq_ok hm.settled id time hfits
  · exact relay_eq_run hm.settled hturns

/-- A builder whose machines remember one move, and complain about it. -/
def forgetful : Builder :=
  (empty ⟨true, some 1⟩).declareAll
    [.path "a" "x" "b", .path "b" "x" "a", .accept "b", .onEntry "b" (.failing "f" ⟨"no", []⟩)]

/-- A move, a break that goes by way of bytes, and the end. -/
def brokenRun : List Turn :=
  [.call (.transition "x"), .park "p" default (some .binary), .call .finish]

theorem relay_brokenRun :
    let m := Machine.start forgetful.config "a"
    m.Reachable forgetful ∧ (m.checkpoint "p" default).Fits ∧
      forgetful.takeUp m "p" default (some .binary) = .ok (m, .resumed "p" "a" .active) ∧
      forgetful.Fitting default [] m brokenRun ∧
      ∃ outcomes last, forgetful.relay default [] m brokenRun = .ok (outcomes, last) := by
  intro m
  have hstart : forgetful.start "a" = .ok (m, .started "a") := rfl
  have hm : m.Reachable forgetful := .start hstart
  have hfits : (m.checkpoint "p" default).Fits := by decide
  have hturns : forgetful.Fitting default [] m brokenRun := by
    intro before id time rest h
    match before with
    | [] => cases h
    | [_] =>
      cases h
      decide
    | [_, _] => cases h
    | _ :: _ :: _ :: before => simp [brokenRun] at h
  obtain ⟨hback, hrelay⟩ := parking_is_invisible hm
  exact ⟨hm, hfits, hback "p" default _ fun _ ↦ hfits, hturns, _, _,
    hrelay default [] brokenRun hturns⟩

end Builder

end LabelAutomaton
