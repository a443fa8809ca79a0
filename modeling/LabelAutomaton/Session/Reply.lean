import LabelAutomaton.Description
import LabelAutomaton.Session.Command

/-!
# Replies

What a session says to a command: an `Answer`, where the machine it was about stands afterwards,
the tags of the callbacks that were called, and the events that were reported.
-/

set_option autoImplicit false

namespace LabelAutomaton

/-- The answer to a command. -/
inductive Answer where
  /-- It is done. -/
  | done
  /-- A truth value. -/
  | truth (b : Bool)
  /-- A number. -/
  | count (n : Nat)
  /-- A text. -/
  | text (s : String)
  /-- For each label the state afterwards, or the error. -/
  | visited (results : List (Except MachineError StateName))
  /-- Options. -/
  | config (c : Config)
  /-- A graph. -/
  | description (d : Description)
  /-- A history. -/
  | history (h : History)
  /-- A checkpoint. -/
  | checkpoint (c : Checkpoint)
  /-- A checkpoint that was just taken. -/
  | parked (c : Checkpoint)
  /-- There is no builder of this name. -/
  | noBuilder (name : String)
  /-- There is no machine of this name. -/
  | noMachine (name : String)
  /-- There is no checkpoint of this name. -/
  | noCheckpoint (name : String)
  /-- Options could not be read. -/
  | readError (e : ReadError)
  /-- A declaration or a start failed. -/
  | buildError (e : BuildError)
  /-- A call on a machine failed. -/
  | machineError (e : MachineError)
  /-- A checkpoint could not be read or resumed. -/
  | checkpointError (e : CheckpointError)

/-- Where a machine stands. -/
structure Snapshot where
  /-- The machine. -/
  machine : Machine
  /-- Whether it could finish. -/
  accepting : Bool

/-- What a session says to a command. -/
structure Reply where
  /-- The answer. -/
  answer : Answer
  /-- Where the machine stands that the command was about. -/
  snapshot : Option Snapshot
  /-- The tags of the callbacks called. -/
  entered : List String
  /-- The events reported. -/
  events : List Event

/-- A reply that has nothing but an answer. -/
def Reply.plain (answer : Answer) : Reply := ⟨answer, none, [], []⟩

/-- The answer to a question. -/
def Builder.answer (b : Builder) : Query → Answer
  | .contains state => .truth (b.graph.contains state)
  | .isAccepting state => .truth (b.graph.isAccepting state)
  | .stateCount => .count b.graph.size
  | .config => .config b.config
  | .describe => .description b.graph.describe

end LabelAutomaton
