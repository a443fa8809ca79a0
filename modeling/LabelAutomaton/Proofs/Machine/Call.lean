import LabelAutomaton.Machine

/-!
# How a machine answers

`Machine.Answers` lists the six ways in which a call can go, each with what it takes and with the
whole outcome. `Machine.answers_call` says that there is no other, so what holds of every call is
shown by going through the list, without opening `transition` and `finish` again.

A run is one call after the other: `Machine.runAt_append` cuts it in two, and
`Machine.forall_mem_runAt` says that it keeps what every call keeps.
-/

set_option autoImplicit false

namespace LabelAutomaton

namespace Machine

/-! ## A single call -/

/-- The ways in which a machine answers a call. -/
inductive Answers (g : Graph) (past : List Invocation) (now : Instant) (m : Machine) :
    Call → Outcome → Prop
  /-- The run has finished, so nothing is answered. -/
  | unusable (c : Call) (hstate : m.runState = .finished) :
      Answers g past now m c ⟨m, .error .unusable, [], []⟩
  /-- The label leads nowhere. -/
  | blocked {label : Label} (hstate : m.runState = .active)
      (htarget : g.target? m.current label = none) :
      Answers g past now m (.transition label)
        ⟨m, .error (.invalidTransition m.current label), [], [.blocked m.current label]⟩
  /-- The machine has moved, and all callbacks have succeeded. -/
  | moved {label : Label} {target : StateName} {invocations : List Invocation}
      (hstate : m.runState = .active) (htarget : g.target? m.current label = some target)
      (hcalls : runCallbacks past target 0 (g.callbacks target) = (invocations, none)) :
      Answers g past now m (.transition label)
        ⟨m.move now label target, .ok (), invocations, [.moved m.current label target]⟩
  /-- The machine has moved, and a callback has failed. -/
  | failed {label : Label} {target : StateName} {invocations : List Invocation} {failure : Failure}
      (hstate : m.runState = .active) (htarget : g.target? m.current label = some target)
      (hcalls : runCallbacks past target 0 (g.callbacks target) = (invocations, some failure)) :
      Answers g past now m (.transition label)
        ⟨m.move now label target, .error (.callback target failure), invocations,
          [.moved m.current label target, .callbackFailed target failure.message]⟩
  /-- The run has ended. -/
  | accepted (hstate : m.runState = .active) (haccepting : g.isAccepting m.current = true) :
      Answers g past now m .finish
        ⟨{ m with runState := .finished }, .ok (), [], [.finished m.current]⟩
  /-- The run cannot end here. -/
  | refused (hstate : m.runState = .active) (haccepting : g.isAccepting m.current = false) :
      Answers g past now m .finish ⟨m, .error (.unacceptableFinish m.current), [], []⟩

/-- **Every call goes one of the six ways.** -/
theorem answers_call (g : Graph) (past : List Invocation) (now : Instant) (m : Machine)
    (c : Call) : Answers g past now m c (m.call g past now c) := by
  cases hstate : m.runState with
  | finished =>
    have hcall : m.call g past now c = ⟨m, .error .unusable, [], []⟩ := by
      cases c with
      | transition label => exact transition_eq_of_finished hstate label
      | finish => rw [call, finish, hstate]
    rw [hcall]
    exact .unusable c hstate
  | active =>
    cases c with
    | transition label =>
      cases htarget : g.target? m.current label with
      | none =>
        rw [call, transition_eq_of_target?_eq_none hstate htarget]
        exact .blocked hstate htarget
      | some target =>
        rw [call, transition, hstate]
        simp only [htarget]
        cases hcalls : runCallbacks past target 0 (g.callbacks target) with
        | mk invocations failure? =>
          cases failure? with
          | none => exact .moved hstate htarget hcalls
          | some failure => exact .failed hstate htarget hcalls
    | finish =>
      rw [call, finish, hstate]
      simp only
      cases haccepting : g.isAccepting m.current with
      | true => exact .accepted hstate haccepting
      | false => exact .refused hstate haccepting

/-- A call goes in one way only. -/
theorem Answers.call_eq {g : Graph} {past : List Invocation} {now : Instant} {m : Machine}
    {c : Call} {o : Outcome} (h : Answers g past now m c o) : m.call g past now c = o := by
  cases h with
  | unusable c hstate =>
    cases c with
    | transition label => exact transition_eq_of_finished hstate label
    | finish => rw [call, finish, hstate]
  | blocked hstate htarget => exact transition_eq_of_target?_eq_none hstate htarget
  | moved hstate htarget hcalls | failed hstate htarget hcalls =>
    rw [call, transition, hstate]
    simp only [htarget, hcalls]
  | accepted hstate haccepting | refused hstate haccepting =>
    rw [call, finish, hstate]
    simp only [haccepting]
    rfl

/-! ## A run -/

/-- **A run in two parts**: the second starts from where the first has led. -/
theorem runAt_append (g : Graph) (past : List Invocation) (m : Machine)
    (cs cs' : List (Instant × Call)) :
    m.runAt g past (cs ++ cs') =
      m.runAt g past cs ++
        (m.after (m.runAt g past cs)).runAt g (known past (m.runAt g past cs)) cs' := by
  induction cs generalizing past m with
  | nil => simp [runAt]
  | cons tc cs ih =>
    simp only [List.cons_append, runAt, after_cons, known_cons]
    rw [ih]

/-- What every call keeps, a run keeps. -/
theorem forall_mem_runAt {g : Graph} {P : Machine → Prop}
    (hcall : ∀ past now m c, P m → P (m.call g past now c).machine)
    (past : List Invocation) {m : Machine} (cs : List (Instant × Call)) (hm : P m) :
    ∀ o ∈ m.runAt g past cs, P o.machine := by
  induction cs generalizing past m with
  | nil => exact fun o ho ↦ nomatch ho
  | cons tc cs ih =>
    obtain ⟨now, c⟩ := tc
    have hnext := hcall past now m c hm
    exact List.forall_mem_cons.2 ⟨hnext, ih _ hnext⟩

end Machine

end LabelAutomaton
