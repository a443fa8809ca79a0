import LabelAutomaton.Config
import LabelAutomaton.Event
import LabelAutomaton.Graph
import LabelAutomaton.Text.Quoted

/-!
# Machines

A `Machine` is one run over a graph: where it began, where it stands, whether it goes on, and the
history of its moves. It answers two calls. `Machine.transition` follows a label and runs the
callbacks of the state entered; `Machine.finish` ends the run in an accepting state.

A call gets the graph, the callback invocations made so far by all machines and the present time,
and leaves an `Outcome`: the machine afterwards, the result, the invocations it made and the
events it reported. A callback that fails spoils the result alone: the machine has moved, and its
history has the step.

Calls are made one after the other by `Machine.runAt`, each at its own time, and by `Machine.run`
all at one time; `Machine.after` is the machine that they leave. `Machine.summary` shows on one line
where a machine stands.
-/

set_option autoImplicit false

namespace LabelAutomaton

/-- Why a call on a machine failed. -/
inductive MachineError where
  /-- The label leads nowhere from the current state. -/
  | invalidTransition (state : StateName) (label : Label)
  /-- The current state does not accept. -/
  | unacceptableFinish (state : StateName)
  /-- The run has finished. -/
  | unusable
  /-- A callback of the state just entered failed. -/
  | callback (state : StateName) (failure : Failure)
deriving DecidableEq

namespace MachineError

/-- The text of an error. -/
def message : MachineError → String
  | invalidTransition state label => s!"No transition from state '{state}' on label '{label}'"
  | unacceptableFinish state => s!"Cannot finish in non-accepting state '{state}'"
  | unusable => "Machine has finished and can no longer be used"
  | callback state _ => s!"Entry callback for state '{state}' failed"

/-- Whether the error comes from calling a finished machine, and not from its input. -/
def isMisuse : MachineError → Bool
  | unusable => true
  | _ => false

/-- What led to the error, the nearest cause first. -/
def sources : MachineError → List String
  | callback _ failure => failure.chain
  | _ => []

end MachineError

/-- One run over a graph. -/
structure Machine where
  /-- The state in which the run began. -/
  initial : StateName
  /-- The state in which the run stands. -/
  current : StateName
  /-- Whether the run goes on. -/
  runState : RunState
  /-- Whether moves are recorded. -/
  recording : Bool
  /-- The moves recorded. -/
  history : History
deriving DecidableEq

/-- What a call on a machine leaves behind. -/
structure Outcome where
  /-- The machine after the call. -/
  machine : Machine
  /-- Whether the call succeeded. -/
  result : Except MachineError Unit
  /-- The callback invocations of the call, in order. -/
  invocations : List Invocation
  /-- The events that the call reported, in order. -/
  events : List Event

/-- A call on a machine. -/
inductive Call where
  /-- Follow a label. -/
  | transition (label : Label)
  /-- End the run. -/
  | finish
deriving DecidableEq

namespace Machine

/-- The machine that stands at the beginning of a run. -/
def start (config : Config) (state : StateName) : Machine :=
  ⟨state, state, .active, config.recordHistory, config.emptyHistory⟩

/-- Whether the run has finished. -/
def isFinished (m : Machine) : Bool := m.runState == .finished

/-- Whether the run could finish where it stands. -/
def isAccepting (g : Graph) (m : Machine) : Bool := !m.isFinished && g.isAccepting m.current

/-- The machine after a move along the label, which leads to `target`. -/
def move (now : Instant) (m : Machine) (label : Label) (target : StateName) : Machine :=
  { m with
    current := target
    history :=
      if m.recording then m.history.record ⟨m.current, label, target, now⟩ else m.history }

/-- Follow the label from the current state, and run the callbacks of the state it leads to. -/
def transition (g : Graph) (past : List Invocation) (now : Instant) (m : Machine)
    (label : Label) : Outcome :=
  match m.runState with
  | .finished => ⟨m, .error .unusable, [], []⟩
  | .active =>
    match g.target? m.current label with
    | none =>
      ⟨m, .error (.invalidTransition m.current label), [], [.blocked m.current label]⟩
    | some target =>
      let moved : Event := .moved m.current label target
      match runCallbacks past target 0 (g.callbacks target) with
      | (calls, none) => ⟨m.move now label target, .ok (), calls, [moved]⟩
      | (calls, some failure) =>
        ⟨m.move now label target, .error (.callback target failure), calls,
          [moved, .callbackFailed target failure.message]⟩

/-- End the run, if the current state accepts. -/
def finish (g : Graph) (m : Machine) : Outcome :=
  match m.runState with
  | .finished => ⟨m, .error .unusable, [], []⟩
  | .active =>
    if g.isAccepting m.current then
      ⟨{ m with runState := .finished }, .ok (), [], [.finished m.current]⟩
    else ⟨m, .error (.unacceptableFinish m.current), [], []⟩

/-- Answer a call. -/
def call (g : Graph) (past : List Invocation) (now : Instant) (m : Machine) : Call → Outcome
  | .transition label => m.transition g past now label
  | .finish => m.finish g

/-! ## Sequences of calls -/

/-- The outcomes of calls made one after the other, each at its own time. -/
def runAt (g : Graph) : List Invocation → Machine → List (Instant × Call) → List Outcome
  | _, _, [] => []
  | past, m, (now, c) :: rest =>
    let outcome := m.call g past now c
    outcome :: runAt g (past ++ outcome.invocations) outcome.machine rest

/-- The outcomes of calls made one after the other while the clock stands still. -/
def run (g : Graph) (now : Instant) (past : List Invocation) (m : Machine) (cs : List Call) :
    List Outcome :=
  m.runAt g past (cs.map (now, ·))

theorem run_cons (g : Graph) (now : Instant) (past : List Invocation) (m : Machine) (c : Call)
    (cs : List Call) :
    m.run g now past (c :: cs) =
      m.call g past now c :: (m.call g past now c).machine.run g now
        (past ++ (m.call g past now c).invocations) cs := rfl

/-- The machine after a run with these outcomes. -/
def after (m : Machine) (outcomes : List Outcome) : Machine :=
  (outcomes.getLast?.map (·.machine)).getD m

@[simp] theorem after_nil (m : Machine) : m.after [] = m := rfl

@[simp] theorem after_cons (m : Machine) (o : Outcome) (os : List Outcome) :
    m.after (o :: os) = o.machine.after os := by
  rw [after, after, List.getLast?_cons]
  cases os.getLast? <;> rfl

/-- The calls of callbacks that are known after a run. -/
def known (past : List Invocation) (outcomes : List Outcome) : List Invocation :=
  past ++ outcomes.flatMap (·.invocations)

@[simp] theorem known_nil (past : List Invocation) : known past [] = past := by
  rw [known, List.flatMap_nil, List.append_nil]

@[simp] theorem known_cons (past : List Invocation) (o : Outcome) (os : List Outcome) :
    known past (o :: os) = known (past ++ o.invocations) os := by
  rw [known, known, List.flatMap_cons, List.append_assoc]

/-- The outcomes of transitions along the labels, up to and including the first that fails. -/
def runUntilError (g : Graph) (now : Instant) :
    List Invocation → Machine → List Label → List Outcome
  | _, _, [] => []
  | past, m, label :: rest =>
    let outcome := m.transition g past now label
    match outcome.result with
    | .error _ => [outcome]
    | .ok _ => outcome :: runUntilError g now (past ++ outcome.invocations) outcome.machine rest

theorem transition_eq_of_finished {g : Graph} {past : List Invocation} {now : Instant}
    {m : Machine} (h : m.runState = .finished) (label : Label) :
    m.transition g past now label = ⟨m, .error .unusable, [], []⟩ := by
  rw [transition, h]

theorem transition_eq_of_target?_eq_none {g : Graph} {past : List Invocation} {now : Instant}
    {m : Machine} {label : Label} (h : m.runState = .active)
    (hnone : g.target? m.current label = none) :
    m.transition g past now label =
      ⟨m, .error (.invalidTransition m.current label), [], [.blocked m.current label]⟩ := by
  rw [transition, h, hnone]

theorem machine_transition_of_target? {g : Graph} {past : List Invocation} {now : Instant}
    {m : Machine} {label : Label} {target : StateName} (h : m.runState = .active)
    (hsome : g.target? m.current label = some target) :
    (m.transition g past now label).machine = m.move now label target := by
  rw [transition, h, hsome]
  simp only
  split <;> rfl

end Machine

/-! ## Summaries -/

/-- The name of a state as a summary shows it. -/
def StateName.summary (state : StateName) : String := "StateName(" ++ quoted state ++ ")"

/-- The run state as a summary shows it. -/
def RunState.summary : RunState → String
  | active => "Active"
  | finished => "Finished"

/-- One line that tells where a machine stands. -/
def Machine.summary (m : Machine) : String :=
  "Machine \x7b initial: " ++ StateName.summary m.initial
    ++ ", current: " ++ StateName.summary m.current
    ++ ", run_state: " ++ m.runState.summary
    ++ ", steps: " ++ m.history.size.repr ++ " \x7d"

end LabelAutomaton
