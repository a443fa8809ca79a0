import LabelAutomaton.Json.Token

/-!
# JSON values, whole and broken off

A `Value` is what can be read of a JSON document from left to right. Where the document breaks off
or stops being JSON the value has a gap: `broken`, or an array or object that is not closed. Whoever
goes through a value in the order of the text thus meets the first problem of the text first, of
whatever kind it is.

`Value.isComplete` says that there is no gap. `Value.tokens` writes a value without spaces.
-/

set_option autoImplicit false

namespace LabelAutomaton.Json

/-- What can be read of a JSON document. -/
inductive Value where
  /-- No value could be read. -/
  | broken
  /-- The word `null`. -/
  | null
  /-- A truth value. -/
  | bool (b : Bool)
  /-- A number. -/
  | number (n : Numeral)
  /-- A string with its text; one with an unpaired surrogate has none. -/
  | string (text : Option String)
  /-- An array and whether it is closed. -/
  | array (items : List Value) (closed : Bool)
  /-- An object and whether it is closed. Keys are strings, with a text or without. -/
  | object (members : List (Option String × Value)) (closed : Bool)

namespace Value

/-- A string. -/
def ofString (text : String) : Value := string (some text)

/-- A natural number. -/
def ofNat (n : Nat) : Value := number (.ofNat n)

/-- An array. -/
def ofList (items : List Value) : Value := array items true

/-- An object. -/
def ofMembers (members : List (String × Value)) : Value :=
  object (members.map fun (key, v) ↦ (some key, v)) true

mutual

/-- Whether the value has no gap. Strings without a text are no gap. -/
def isComplete : Value → Bool
  | broken => false
  | null => true
  | bool _ => true
  | number _ => true
  | string _ => true
  | array items closed => closed && areComplete items
  | object members closed => closed && membersComplete members

/-- Whether none of the values has a gap. -/
def areComplete : List Value → Bool
  | [] => true
  | v :: rest => v.isComplete && areComplete rest

/-- Whether none of the members has a gap. -/
def membersComplete : List (Option String × Value) → Bool
  | [] => true
  | (_, v) :: rest => v.isComplete && membersComplete rest

end

/-! ## Writing -/

/-- Lists with commas between them. -/
def joined : List (List Token) → List Token
  | [] => []
  | [ts] => ts
  | ts :: rest => ts ++ .comma :: joined rest

mutual

/-- The tokens of a value. -/
def tokens : Value → List Token
  | broken => [.bad]
  | null => [.null]
  | bool b => [.bool b]
  | number n => [.number n]
  | string text => [.string text]
  | array items _ => .openArray :: joined (itemTokens items) ++ [.closeArray]
  | object members _ => .openObject :: joined (memberTokens members) ++ [.closeObject]

/-- The tokens of each value. -/
def itemTokens : List Value → List (List Token)
  | [] => []
  | v :: rest => v.tokens :: itemTokens rest

/-- The tokens of each member. -/
def memberTokens : List (Option String × Value) → List (List Token)
  | [] => []
  | (key, v) :: rest => (.string key :: .colon :: v.tokens) :: memberTokens rest

end

/-- The text of a value, without spaces. -/
def toText (v : Value) : String := String.ofList (v.tokens.flatMap Token.toChars)

end Value

end LabelAutomaton.Json
