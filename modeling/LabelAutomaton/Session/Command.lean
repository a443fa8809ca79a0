import LabelAutomaton.Checkpoint.Binary
import LabelAutomaton.Checkpoint.Json
import LabelAutomaton.Config

/-!
# Commands

What a session can be asked to do. Builders, machines and checkpoints go by name.

A `Command` is about one of the three. Those about a machine have an `Action`, and those about a
builder a `Declaration` or a `Query`. A checkpoint leaves the session as a `WrittenCheckpoint`, in
one `Format` or the other (`Checkpoint.write`), and comes back from it
(`WrittenCheckpoint.read`); an `Edit` makes another checkpoint of it on the way.
-/

set_option autoImplicit false

namespace LabelAutomaton

/-! ## Parts of commands -/

/-- Where the options of a new builder come from. -/
inductive ConfigSource where
  /-- They are given. -/
  | given (config : Config)
  /-- They are read from a text. -/
  | json (text : String)

/-- The options of a new builder. -/
def ConfigSource.read : ConfigSource → Except ReadError Config
  | given c => .ok c
  | json text => Config.ofJson text

/-- A written form of checkpoints. -/
inductive Format where
  /-- JSON. -/
  | json
  /-- Bytes. -/
  | binary
deriving DecidableEq

/-- A checkpoint in written form. -/
inductive WrittenCheckpoint where
  /-- JSON. -/
  | json (text : String)
  /-- Bytes. -/
  | binary (bytes : List UInt8)

/-- The checkpoint that was written. -/
def WrittenCheckpoint.read : WrittenCheckpoint → Except CheckpointError Checkpoint
  | json text => Checkpoint.ofJson text
  | binary bytes => Checkpoint.ofBytes bytes

/-- A checkpoint in written form. -/
def Checkpoint.write (c : Checkpoint) : Format → WrittenCheckpoint
  | .json => .json c.toJson
  | .binary => .binary c.toBytes

/-- A change of a checkpoint; what is not given stays. -/
structure Edit where
  /-- The version. -/
  version : Option UInt32
  /-- The id. -/
  id : Option String
  /-- The state in which the run began. -/
  initial : Option StateName
  /-- The state in which the run stands. -/
  current : Option StateName
  /-- Whether the run goes on. -/
  runState : Option RunState

/-- The change of a checkpoint. -/
def Edit.apply (e : Edit) (c : Checkpoint) : Checkpoint :=
  { c with
    version := e.version.getD c.version
    id := e.id.getD c.id
    initial := e.initial.getD c.initial
    current := e.current.getD c.current
    runState := e.runState.getD c.runState }

/-- A question about a builder. -/
inductive Query where
  /-- Is there a state of this name? -/
  | contains (state : StateName)
  /-- May a run finish in the state? -/
  | isAccepting (state : StateName)
  /-- How many states are there? -/
  | stateCount
  /-- What are the options? -/
  | config
  /-- What does the graph look like? -/
  | describe

/-- Something to do with a machine. -/
inductive Action where
  /-- Follow a label. -/
  | transition (label : Label)
  /-- Follow labels, if so wished up to the first that fails. -/
  | run (labels : List Label) (stop : Bool)
  /-- Finish. -/
  | finish
  /-- Tell where the machine stands. -/
  | state
  /-- Show the history. -/
  | history
  /-- Show the machine on one line. -/
  | summary
  /-- Take a checkpoint and keep it under this name. -/
  | checkpoint (name : String)

/-! ## The commands -/

/-- Something that a session is asked to do. -/
inductive Command where
  /-- Begin a builder. -/
  | new (builder : String) (config : ConfigSource)
  /-- Declare something. -/
  | declare (builder : String) (declaration : Declaration)
  /-- Declare paths, and count the states. -/
  | paths (builder : String) (paths : List (StateName × Label × StateName))
  /-- Ask a builder. -/
  | query (builder : String) (query : Query)
  /-- Start a machine. -/
  | start (builder machine : String) (state : StateName)
  /-- Take up a parked run. -/
  | resume (builder checkpoint machine : String)
  /-- Do something with a machine. -/
  | act (machine : String) (action : Action)
  /-- Give up a machine. -/
  | drop (machine : String)
  /-- Read a checkpoint. -/
  | load (checkpoint : String) (written : WrittenCheckpoint)
  /-- Change a checkpoint. -/
  | edit (checkpoint : String) (edit : Edit)
  /-- Show a checkpoint. -/
  | view (checkpoint : String)
  /-- Write a checkpoint and read it back. -/
  | reload (checkpoint : String) (format : Format)
  /-- Compare two checkpoints. If one of them is missing, the answer names the first. -/
  | same (checkpoint other : String)

end LabelAutomaton
