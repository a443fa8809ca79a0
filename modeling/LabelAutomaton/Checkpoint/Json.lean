import LabelAutomaton.Checkpoint
import LabelAutomaton.History.Json

/-!
# Checkpoints as JSON

A checkpoint is written as an object with a member for each field, the history being a record of its
own (`Checkpoint.toValue`). It is read from any record in which each field occurs once, so also from
an array of the values in their order. A run state goes by its name.

`Checkpoint.ofJson` reads all fields before it looks at the version, so a document of another
version that cannot be read is reported as such.
-/

set_option autoImplicit false

namespace LabelAutomaton

open Json

namespace RunState

/-- The name of a run state in documents. -/
def name : RunState → String
  | active => "Active"
  | finished => "Finished"

/-- The run state of a name. -/
def ofName : String → Except ReadError RunState
  | "Active" => .ok active
  | "Finished" => .ok finished
  | name => .error (.unknownRunState name)

/-- Read a run state: its name, or an object whose only member has the name as its key and holds
`null`. -/
def ofValue : Reader RunState
  | .string (some name) => ofName name
  | .object ((some name, v) :: rest) closed => do
    let s ← ofName name
    match v with
    | .null => if rest.isEmpty && closed then return s else throw .malformedJson
    | v => throw v.mismatch
  | _ => .error .malformedJson

end RunState

namespace Checkpoint

/-- A checkpoint as a value. -/
def toValue (c : Checkpoint) : Value :=
  .ofMembers [
    ("version", .ofNat c.version.toNat),
    ("id", .ofString c.id),
    ("timestamp", c.time.toValue),
    ("initial_state", .ofString c.initial),
    ("current_state", .ofString c.current),
    ("run_state", .ofString c.runState.name),
    ("history", c.history.toValue)]

/-- The text of a checkpoint. -/
def toJson (c : Checkpoint) : String := c.toValue.toText

/-- What the members of a checkpoint must pass. -/
def fields : List Field :=
  [.of "version" readWord32, .of "id" readString, .of "timestamp" Instant.ofValue,
    .of "initial_state" readString, .of "current_state" readString,
    .of "run_state" RunState.ofValue, .of "history" History.ofValue]

/-- Read a checkpoint of any version. -/
def ofValue : Reader Checkpoint := fun v ↦ do
  let members ← Record.members fields false v
  let version ← Record.required members "version" readWord32
  let id ← Record.required members "id" readString
  let time ← Record.required members "timestamp" Instant.ofValue
  let initial ← Record.required members "initial_state" readString
  let current ← Record.required members "current_state" readString
  let runState ← Record.required members "run_state" RunState.ofValue
  let history ← Record.required members "history" History.ofValue
  return ⟨version, id, time, initial, current, runState, history⟩

/-- The checkpoint of a text. The version is looked at when all else is well. -/
def ofJson (text : String) : Except CheckpointError Checkpoint :=
  ofRead (Document.read ofValue text)

end Checkpoint

end LabelAutomaton
