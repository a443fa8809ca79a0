import LabelAutomaton.History
import LabelAutomaton.Json.Reader

/-!
# Machine options

A `Config` goes with a graph and holds for all machines that are started over it: whether they
record their moves, and how many steps their histories keep. By `Config.standard` they record
nothing, and nothing is limited.

A document of options may leave out any of them; the standard ones take their place.
-/

set_option autoImplicit false

namespace LabelAutomaton

open Json

/-- The options of all machines that are started over one graph. -/
structure Config where
  /-- Whether the moves of a machine are recorded in its history. -/
  recordHistory : Bool
  /-- The most steps that a history keeps. -/
  historyLimit : Option UInt64
deriving DecidableEq

namespace Config

/-- Nothing is recorded, and nothing is limited. -/
def standard : Config := ⟨false, none⟩

/-- The history with which a machine begins. -/
def emptyHistory (c : Config) : History := History.empty c.historyLimit

/-! ## Documents -/

/-- The options as a value. -/
def toValue (c : Config) : Value :=
  .ofMembers [
    ("record_history", .bool c.recordHistory),
    ("history_limit", c.historyLimit.elim .null fun limit ↦ .ofNat limit.toNat)]

/-- The text of the options. -/
def toJson (c : Config) : String := c.toValue.toText

/-- What the members of a document of options must pass. -/
def fields : List Field :=
  [.of "record_history" readBool, .of "history_limit" (readNullable readWord64)]

/-- Read options. -/
def ofValue : Reader Config := fun v ↦ do
  let members ← Record.members fields true v
  let recordHistory ← Record.optional members "record_history" readBool standard.recordHistory
  let historyLimit ←
    Record.optional members "history_limit" (readNullable readWord64) standard.historyLimit
  return ⟨recordHistory, historyLimit⟩

/-- The options of a text. -/
def ofJson (text : String) : Except ReadError Config := Document.read ofValue text

end Config

end LabelAutomaton
