import LabelAutomaton.Session.Reply

/-!
# Sessions

A `Session` keeps builders, machines and checkpoints under names. `Session.obey` does what a
`Command` asks and gives a `Reply`.

Machines walk the graph of the builder from which they were started, so a command that changes a
builder ends all machines. Checkpoints stay.
-/

set_option autoImplicit false

namespace LabelAutomaton

/-! ## What a session keeps -/

/-- A builder and the calls of its callbacks. -/
structure Bench where
  /-- The builder. -/
  builder : Builder
  /-- The calls made so far, by all machines. -/
  calls : List Invocation

/-- A machine and the name of its builder. -/
structure Runner where
  /-- The name of the builder. -/
  home : String
  /-- The machine. -/
  machine : Machine

/-- Builders, machines and checkpoints under names. -/
structure Session where
  /-- The time at which everything happens. -/
  now : Instant
  /-- The id of the checkpoints that are taken. -/
  checkpointId : String
  /-- The builders. -/
  benches : SortedMap Bench
  /-- The machines. -/
  runners : SortedMap Runner
  /-- The checkpoints. -/
  checkpoints : SortedMap Checkpoint

namespace Session

/-- The session in which there is nothing yet. -/
def empty (now : Instant) (checkpointId : String) : Session :=
  ⟨now, checkpointId, SortedMap.empty, SortedMap.empty, SortedMap.empty⟩

/-! ## Builders -/

/-- The builder of this name; if there is none, an empty one. -/
def bench (s : Session) (name : String) : Bench :=
  (s.benches.find? name).getD ⟨Builder.empty Config.standard, []⟩

/-- The session with a changed builder, which ends all machines. -/
def setBench (s : Session) (name : String) (bench : Bench) : Session :=
  { s with benches := s.benches.insert name bench, runners := SortedMap.empty }

/-- Begin a builder. If its options cannot be read, the builder of that name stays. -/
def new (s : Session) (name : String) (config : ConfigSource) : Session × Reply :=
  match config.read with
  | .ok c => (s.setBench name ⟨Builder.empty c, []⟩, .plain .done)
  | .error e => ({ s with runners := SortedMap.empty }, .plain (.readError e))

/-- The answer to a declaration that was taken: a path tells the number of states. -/
def declaredAnswer (b : Builder) : Declaration → Answer
  | .path .. => .count b.graph.size
  | _ => .done

/-- Declare something. -/
def declare (s : Session) (name : String) (declaration : Declaration) : Session × Reply :=
  let bench := s.bench name
  let declared := bench.builder.declare declaration
  let answer := match declared.result with
    | .ok () => declaredAnswer declared.builder declaration
    | .error e => .buildError e
  (s.setBench name { bench with builder := declared.builder },
    ⟨answer, none, [], declared.events⟩)

/-- Declare paths one after the other. -/
def declarePaths (s : Session) (name : String) (paths : List (StateName × Label × StateName)) :
    Session × Reply :=
  let bench := s.bench name
  let declarations : List Declaration :=
    paths.map fun (source, label, target) ↦ .path source label target
  let builder := bench.builder.declareAll declarations
  (s.setBench name { bench with builder },
    ⟨.count builder.graph.size, none, [], bench.builder.reports declarations⟩)

/-! ## Machines -/

/-- Where a machine stands. -/
def snapshot (s : Session) (runner : Runner) : Snapshot :=
  ⟨runner.machine, runner.machine.isAccepting (s.bench runner.home).builder.graph⟩

/-- The session with a machine that was just started or resumed. -/
def launch (s : Session) (home name : String) (machine : Machine) (event : Event) :
    Session × Reply :=
  let runner : Runner := ⟨home, machine⟩
  ({ s with runners := s.runners.insert name runner },
    ⟨.done, some (s.snapshot runner), [], [event]⟩)

/-- Start a machine. -/
def start (s : Session) (home name : String) (state : StateName) : Session × Reply :=
  match s.benches.find? home with
  | none => (s, .plain (.noBuilder home))
  | some bench =>
    match bench.builder.start state with
    | .ok (machine, event) => s.launch home name machine event
    | .error e => (s, .plain (.buildError e))

/-- Take up a parked run. -/
def resume (s : Session) (home checkpoint name : String) : Session × Reply :=
  match s.benches.find? home with
  | none => (s, .plain (.noBuilder home))
  | some bench =>
    match s.checkpoints.find? checkpoint with
    | none => (s, .plain (.noCheckpoint checkpoint))
    | some c =>
      match bench.builder.resume c with
      | .ok (machine, event) => s.launch home name machine event
      | .error e => (s, .plain (.checkpointError e))

/-- The session after calls on a machine, and the reply to them. -/
def afterCalls (s : Session) (name : String) (runner : Runner) (outcomes : List Outcome)
    (answer : Answer) : Session × Reply :=
  let bench := s.bench runner.home
  let runner := { runner with machine := runner.machine.after outcomes }
  let s :=
    { s with
      benches :=
        s.benches.insert runner.home { bench with calls := Machine.known bench.calls outcomes }
      runners := s.runners.insert name runner }
  (s, ⟨answer, some (s.snapshot runner), (outcomes.flatMap (·.invocations)).map (·.tag),
    outcomes.flatMap (·.events)⟩)

/-- The answer to a call. -/
def callAnswer (outcome : Outcome) : Answer :=
  match outcome.result with
  | .ok () => .done
  | .error e => .machineError e

/-- What is told of a label: the state afterwards, or the error. -/
def visit (outcome : Outcome) : Except MachineError StateName :=
  outcome.result.map fun () ↦ outcome.machine.current

/-- Do something with a machine. -/
def act (s : Session) (name : String) (runner : Runner) (action : Action) : Session × Reply :=
  let { builder, calls } := s.bench runner.home
  let m := runner.machine
  match action with
  | .transition label =>
    let outcome := m.transition builder.graph calls s.now label
    s.afterCalls name runner [outcome] (callAnswer outcome)
  | .run labels stop =>
    let outcomes :=
      if stop then Machine.runUntilError builder.graph s.now calls m labels
      else Machine.run builder.graph s.now calls m (labels.map .transition)
    s.afterCalls name runner outcomes (.visited (outcomes.map visit))
  | .finish =>
    let outcome := m.finish builder.graph
    s.afterCalls name runner [outcome] (callAnswer outcome)
  | .state => (s, ⟨.done, some (s.snapshot runner), [], []⟩)
  | .history => (s, ⟨.history m.history, some (s.snapshot runner), [], []⟩)
  | .summary => (s, ⟨.text m.summary, some (s.snapshot runner), [], []⟩)
  | .checkpoint checkpoint =>
    let c := m.checkpoint s.checkpointId s.now
    ({ s with checkpoints := s.checkpoints.insert checkpoint c },
      ⟨.parked c, some (s.snapshot runner), [], []⟩)

/-! ## Checkpoints -/

/-- Keep a checkpoint and show it, or report why it could not be read. -/
def keep (s : Session) (name : String) (read : Except CheckpointError Checkpoint)
    (answer : Checkpoint → Answer) : Session × Reply :=
  match read with
  | .ok c => ({ s with checkpoints := s.checkpoints.insert name c }, .plain (answer c))
  | .error e => (s, .plain (.checkpointError e))

/-- Do something with the checkpoint of this name. -/
def withCheckpoint (s : Session) (name : String) (f : Checkpoint → Session × Reply) :
    Session × Reply :=
  match s.checkpoints.find? name with
  | some c => f c
  | none => (s, .plain (.noCheckpoint name))

/-! ## Commands -/

/-- Obey a command. -/
def obey (s : Session) : Command → Session × Reply
  | .new name config => s.new name config
  | .declare name declaration => s.declare name declaration
  | .paths name paths => s.declarePaths name paths
  | .query name query =>
    match s.benches.find? name with
    | some bench => (s, .plain (bench.builder.answer query))
    | none => (s, .plain (.noBuilder name))
  | .start home name state => s.start home name state
  | .resume home checkpoint name => s.resume home checkpoint name
  | .act name action =>
    match s.runners.find? name with
    | some runner => s.act name runner action
    | none => (s, .plain (.noMachine name))
  | .drop name =>
    ({ s with runners := s.runners.erase name }, .plain (.truth (s.runners.contains name)))
  | .load name written => s.keep name written.read .checkpoint
  | .edit name edit =>
    s.withCheckpoint name fun c ↦ s.keep name (.ok (edit.apply c)) .checkpoint
  | .view name => s.withCheckpoint name fun c ↦ (s, .plain (.checkpoint c))
  | .reload name format =>
    s.withCheckpoint name fun c ↦
      s.keep name (c.write format).read fun c' ↦ .truth (decide (c' = c))
  | .same name other =>
    match s.checkpoints.find? name, s.checkpoints.find? other with
    | some c, some c' => (s, .plain (.truth (decide (c = c'))))
    | _, _ => (s, .plain (.noCheckpoint name))

/-- The replies to commands, one after the other. -/
def run (s : Session) : List Command → List Reply
  | [] => []
  | c :: rest =>
    let (s, reply) := s.obey c
    reply :: s.run rest

end Session

end LabelAutomaton
