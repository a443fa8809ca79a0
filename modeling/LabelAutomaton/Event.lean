import LabelAutomaton.Callback

/-!
# Log events

An `Event` is something that a graph under construction, or a machine that walks it, reports about
itself. It holds what it is about; `Event.level` says how much attention it asks for, and
`Event.message` puts it into words.
-/

set_option autoImplicit false

namespace LabelAutomaton

/-- Whether a run goes on. -/
inductive RunState where
  /-- The run takes labels. -/
  | active
  /-- The run has ended in an accepting state, for good. -/
  | finished
deriving DecidableEq

/-- The run state in words. -/
def RunState.word : RunState → String
  | .active => "active"
  | .finished => "finished"

/-- How much attention an event asks for. -/
inductive Level where
  /-- A single step. -/
  | trace
  /-- The beginning or end of something. -/
  | debug
  /-- Something went wrong. -/
  | warn
deriving DecidableEq

/-- Something that was reported. -/
inductive Event where
  /-- A path took the place of one with the same source and label and another target. -/
  | pathReplaced (source : StateName) (label : Label) (target previous : StateName)
  /-- A machine was started. -/
  | started (state : StateName)
  /-- A machine met a label that leads nowhere. -/
  | blocked (state : StateName) (label : Label)
  /-- A machine moved. -/
  | moved (source : StateName) (label : Label) (target : StateName)
  /-- A callback of the state just entered failed. -/
  | callbackFailed (state : StateName) (message : String)
  /-- A machine finished. -/
  | finished (state : StateName)
  /-- A machine was resumed from the checkpoint with this id. -/
  | resumed (id : String) (state : StateName) (runState : RunState)
deriving DecidableEq

namespace Event

/-- The level at which an event is reported. -/
def level : Event → Level
  | pathReplaced .. | started .. | finished .. | resumed .. => .debug
  | blocked .. | moved .. => .trace
  | callbackFailed .. => .warn

/-- The text of an event. -/
def message : Event → String
  | pathReplaced source label target previous =>
    s!"Path '{source}' --{label}--> '{target}' replaced previous target '{previous}'"
  | started state => s!"Starting machine at state '{state}'"
  | blocked state label => s!"No transition from '{state}' on '{label}'"
  | moved source label target => s!"Transition '{source}' --{label}--> '{target}'"
  | callbackFailed state message => s!"Entry callback for state '{state}' failed: {message}"
  | finished state => s!"Machine finished in state '{state}'"
  | resumed id state runState =>
    s!"Resuming checkpoint {id} at state '{state}' ({runState.word})"

end Event

end LabelAutomaton
