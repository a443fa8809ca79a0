import LabelAutomaton.Builder
import LabelAutomaton.ReadError

/-!
# Checkpoints

A `Checkpoint` holds where a run stands, so that the run can be parked and taken up again over a
builder that knows its states. The graph and its callbacks are not part of it.

`Builder.resume` goes on from a checkpoint. Recording and the limit of the history follow the
builder, so saved steps beyond the limit are given up, oldest first; nothing is run again.
-/

set_option autoImplicit false

namespace LabelAutomaton

/-- A parked run. -/
structure Checkpoint where
  /-- The version of the format. -/
  version : UInt32
  /-- What tells the checkpoint from others. -/
  id : String
  /-- When the checkpoint was taken. -/
  time : Instant
  /-- The state in which the run began. -/
  initial : StateName
  /-- The state in which the run stands. -/
  current : StateName
  /-- Whether the run goes on. -/
  runState : RunState
  /-- The moves recorded. -/
  history : History
deriving DecidableEq

/-- Why a checkpoint could not be read or resumed. -/
inductive CheckpointError where
  /-- The document could not be read. -/
  | unreadable (cause : ReadError)
  /-- The checkpoint has a version other than the supported one. -/
  | unsupportedVersion (found : UInt32)
  /-- The builder has no state of this name. -/
  | unknownState (state : StateName)
deriving DecidableEq

/-- The version of the format that is written and read. -/
def Checkpoint.supportedVersion : UInt32 := 1

/-- The text of an error. -/
def CheckpointError.message : CheckpointError → String
  | unreadable cause => s!"Deserialization failed: {cause.message}"
  | unsupportedVersion found =>
    s!"Unsupported checkpoint version {found}, supported: {Checkpoint.supportedVersion}"
  | unknownState state => s!"Checkpoint refers to unknown state '{state}'"

/-- The checkpoint itself, if its version is supported. -/
def Checkpoint.checkVersion (c : Checkpoint) : Except CheckpointError Checkpoint :=
  if c.version = supportedVersion then .ok c else .error (.unsupportedVersion c.version)

/-- What a reader found, if it is a checkpoint of the supported version. -/
def Checkpoint.ofRead : Except ReadError Checkpoint → Except CheckpointError Checkpoint
  | .error cause => .error (.unreadable cause)
  | .ok c => c.checkVersion

/-- Park a run. -/
def Machine.checkpoint (m : Machine) (id : String) (now : Instant) : Checkpoint :=
  ⟨Checkpoint.supportedVersion, id, now, m.initial, m.current, m.runState, m.history⟩

namespace Builder

/-- The state itself, if the builder knows it. -/
def resolve (b : Builder) (state : StateName) : Except CheckpointError StateName :=
  if b.graph.contains state then .ok state else .error (.unknownState state)

/-- Take up a parked run. -/
def resume (b : Builder) (c : Checkpoint) : Except CheckpointError (Machine × Event) := do
  let c ← c.checkVersion
  let initial ← b.resolve c.initial
  let current ← b.resolve c.current
  let history := b.config.emptyHistory.recordAll c.history.steps
  return (⟨initial, current, c.runState, b.config.recordHistory, history⟩,
    .resumed c.id current c.runState)

end Builder

end LabelAutomaton
