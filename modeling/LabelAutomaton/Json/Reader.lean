import LabelAutomaton.Json.Document

/-!
# Reading JSON values

A reader takes a value and returns what it stands for, or the first problem in the order of the
text.

Records are read from objects. `Field`s say which members count; other members may hold anything,
if only they are whole. `Record.members` goes through an object once, checks each member that
counts where it stands, and returns them; after that every field is looked up by `Record.required`
or `Record.optional`. A record may also be written as the array of its fields in their order.
-/

set_option autoImplicit false

namespace LabelAutomaton.Json

/-- What reads a value. -/
abbrev Reader (α : Type) := Value → Except ReadError α

/-! ## Scalars and lists -/

/-- The problem with a value that has the wrong type. A gap, a string without a text or a number
that is too large is met before the type is. -/
def Value.mismatch : Value → ReadError
  | .broken => .malformedJson
  | .string none => .malformedJson
  | .number n => if n.overflows then .malformedJson else .invalidType
  | _ => .invalidType

/-- Read a string. -/
def readString : Reader String
  | .string (some text) => .ok text
  | v => .error v.mismatch

/-- Read a truth value. -/
def readBool : Reader Bool
  | .bool b => .ok b
  | v => .error v.mismatch

/-- Read a natural number below the bound. -/
def readNat (bound : Nat) : Reader Nat
  | .number n =>
    match n.integer? with
    | some (.ofNat k) => if k < bound then .ok k else .error .invalidValue
    | some (.negSucc _) => .error .invalidValue
    | none => .error (Value.number n).mismatch
  | v => .error v.mismatch

/-- Read a word of 32 bits. -/
def readWord32 : Reader UInt32 := fun v ↦ UInt32.ofNat <$> readNat UInt32.size v

/-- Read a word of 64 bits. -/
def readWord64 : Reader UInt64 := fun v ↦ UInt64.ofNat <$> readNat UInt64.size v

/-- Read a value that may be missing, which `null` says. -/
def readNullable {α : Type} (reader : Reader α) : Reader (Option α)
  | .null => .ok none
  | v => some <$> reader v

/-- Read each item of a list. -/
def readItems {α : Type} (reader : Reader α) : List Value → Except ReadError (List α)
  | [] => .ok []
  | v :: rest => do
    let a ← reader v
    let as ← readItems reader rest
    return a :: as

/-- Read an array of values of one kind. -/
def readList {α : Type} (reader : Reader α) : Reader (List α)
  | .array items closed => do
    let as ← readItems reader items
    if closed then return as else throw .malformedJson
  | v => .error v.mismatch

/-! ## Records -/

/-- A field of a record. -/
structure Field where
  /-- The key of the field. -/
  name : String
  /-- What its value must pass. -/
  check : Value → Except ReadError Unit

/-- The field whose value `reader` reads. -/
def Field.of {α : Type} (name : String) (reader : Reader α) : Field :=
  ⟨name, fun v ↦ (fun _ ↦ ()) <$> reader v⟩

namespace Record

/-- Go through the members of an object. A field must not occur twice, which is noticed at its
second key, and its value must pass its check; any other member must be whole. -/
def check (fields : List Field) (seen : List String) :
    List (Option String × Value) → Except ReadError Unit
  | [] => .ok ()
  | (none, _) :: _ => .error .malformedJson
  | (some key, v) :: rest =>
    match fields.find? (·.name == key) with
    | some field =>
      if seen.contains key then .error (.duplicateField key)
      else do
        field.check v
        check fields (key :: seen) rest
    | none => if v.isComplete then check fields seen rest else .error .malformedJson

/-- Go through the items of an array that stand for the fields. -/
def checkItems : List (Field × Value) → Except ReadError Unit
  | [] => .ok ()
  | (field, v) :: rest => do
    field.check v
    checkItems rest

/-- The members with a key. -/
def named (members : List (Option String × Value)) : List (String × Value) :=
  members.filterMap fun (key, v) ↦ key.map (·, v)

/-- The members of a record. Written as an array, it must have all fields, unless they are
`defaulted`; then the last ones may be missing. -/
def members (fields : List Field) (defaulted : Bool) :
    Value → Except ReadError (List (String × Value))
  | .object members closed => do
    check fields [] members
    if closed then return named members else throw .malformedJson
  | .array items closed => do
    let pairs := fields.zip items
    checkItems pairs
    if !closed || decide (fields.length < items.length) then throw .malformedJson
    if !defaulted && decide (items.length < fields.length) then throw .invalidLength
    return pairs.map fun (field, v) ↦ (field.name, v)
  | v => .error v.mismatch

/-- The value of a field that must be there. -/
def required {α : Type} (members : List (String × Value)) (name : String) (reader : Reader α) :
    Except ReadError α :=
  match members.lookup name with
  | some v => reader v
  | none => .error (.missingField name)

/-- The value of a field that may be missing. -/
def optional {α : Type} (members : List (String × Value)) (name : String) (reader : Reader α)
    (default : α) : Except ReadError α :=
  match members.lookup name with
  | some v => reader v
  | none => .ok default

end Record

end LabelAutomaton.Json
