import LabelAutomaton.Description
import LabelAutomaton.Json.Reader

/-!
# Descriptions as JSON

A description is an object with the list of its states, and each state an object with all that can
be shown of it. The targets of a state are an object too, with the labels as keys, so unlike a
record it may have any keys, and one key more than once; then the last member with it counts
(`StateDescription.readTransitions`).
-/

set_option autoImplicit false

namespace LabelAutomaton

open Json

namespace StateDescription

/-- A state as a value. -/
def toValue (s : StateDescription) : Value :=
  .ofMembers [
    ("name", .ofString s.name),
    ("accepting", .bool s.accepting),
    ("callbacks", .ofNat s.callbacks),
    ("transitions", .ofMembers (s.transitions.entries.map fun (label, target) ↦
      (label, .ofString target)))]

/-- Read the targets of labels, each from its member. -/
def readTargets : List (Option String × Value) → Except ReadError (List (Label × StateName))
  | [] => .ok []
  | (none, _) :: _ => .error .malformedJson
  | (some label, v) :: rest => do
    let target ← readString v
    let targets ← readTargets rest
    return (label, target) :: targets

/-- Read transitions from an object. Of two members with one key the later counts. -/
def readTransitions : Reader (SortedMap StateName)
  | .object members closed => do
    let targets ← readTargets members
    if closed then return SortedMap.ofList targets else throw .malformedJson
  | v => .error v.mismatch

/-- What the members of a state must pass. -/
def fields : List Field :=
  [.of "name" readString, .of "accepting" readBool, .of "callbacks" (readNat UInt64.size),
    .of "transitions" readTransitions]

/-- Read a state. -/
def ofValue : Reader StateDescription := fun v ↦ do
  let members ← Record.members fields false v
  let name ← Record.required members "name" readString
  let accepting ← Record.required members "accepting" readBool
  let callbacks ← Record.required members "callbacks" (readNat UInt64.size)
  let transitions ← Record.required members "transitions" readTransitions
  return ⟨name, accepting, callbacks, transitions⟩

end StateDescription

namespace Description

/-- A description as a value. -/
def toValue (d : Description) : Value :=
  .ofMembers [("states", .ofList (d.states.map StateDescription.toValue))]

/-- The text of a description. -/
def toJson (d : Description) : String := d.toValue.toText

/-- What the members of a description must pass. -/
def fields : List Field := [.of "states" (readList StateDescription.ofValue)]

/-- Read a description. -/
def ofValue : Reader Description := fun v ↦ do
  let members ← Record.members fields false v
  let states ← Record.required members "states" (readList StateDescription.ofValue)
  return ⟨states⟩

/-- The description of a text. -/
def ofJson (text : String) : Except ReadError Description := Document.read ofValue text

end Description

end LabelAutomaton
