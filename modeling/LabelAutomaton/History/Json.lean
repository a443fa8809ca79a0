import LabelAutomaton.Calendar.Instant.Text
import LabelAutomaton.History
import LabelAutomaton.Json.Reader

/-!
# Run histories as JSON

A history is a record of its steps and of its limit, a step one of its two states, its label and its
time, and an instant the text that names it. A limit that is not there is none. What is read is
taken as it stands: steps beyond the limit are kept, for it is only when a step is added that the
oldest ones are given up.
-/

set_option autoImplicit false

namespace LabelAutomaton

open Json

/-- Read an instant from its text. -/
def Instant.ofValue : Reader Instant := fun v ↦ do
  match Instant.ofText? (← readString v) with
  | some t => return t
  | none => throw .badTimestamp

/-- An instant as a value. -/
def Instant.toValue (t : Instant) : Value := .ofString t.toText

namespace Step

/-- A step as a value. -/
def toValue (s : Step) : Value :=
  .ofMembers [
    ("from", .ofString s.source),
    ("label", .ofString s.label),
    ("to", .ofString s.target),
    ("timestamp", s.time.toValue)]

/-- What the members of a step must pass. -/
def fields : List Field :=
  [.of "from" readString, .of "label" readString, .of "to" readString,
    .of "timestamp" Instant.ofValue]

/-- Read a step. -/
def ofValue : Reader Step := fun v ↦ do
  let members ← Record.members fields false v
  let source ← Record.required members "from" readString
  let label ← Record.required members "label" readString
  let target ← Record.required members "to" readString
  let time ← Record.required members "timestamp" Instant.ofValue
  return ⟨source, label, target, time⟩

end Step

namespace History

/-- A history as a value. -/
def toValue (h : History) : Value :=
  .ofMembers [
    ("steps", .ofList (h.steps.map Step.toValue)),
    ("limit", h.limit.elim .null fun limit ↦ .ofNat limit.toNat)]

/-- The text of a history. -/
def toJson (h : History) : String := h.toValue.toText

/-- What the members of a history must pass. -/
def fields : List Field :=
  [.of "steps" (readList Step.ofValue), .of "limit" (readNullable readWord64)]

/-- Read a history. It is taken as it stands: the limit trims no steps. -/
def ofValue : Reader History := fun v ↦ do
  let members ← Record.members fields false v
  let steps ← Record.required members "steps" (readList Step.ofValue)
  let limit ← Record.optional members "limit" (readNullable readWord64) none
  return ⟨steps, limit⟩

/-- The history of a text. -/
def ofJson (text : String) : Except ReadError History := Document.read ofValue text

end History

end LabelAutomaton
