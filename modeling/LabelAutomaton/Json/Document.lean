import LabelAutomaton.Json.Value
import LabelAutomaton.ReadError

/-!
# Reading JSON documents

`Document.ofText` reads a text as one value and the tokens behind it. The reader goes through the
tokens once. It keeps the arrays and objects that are still open in a list of `Frame`s, innermost
first, so it needs no bound on how deep a document is nested.

`Document.read` reads a document with a reader for values; whatever stands behind the value is a
problem that comes after all problems of the value.
-/

set_option autoImplicit false

namespace LabelAutomaton.Json

/-- An array or object part way through, with what it holds so far, latest first. -/
inductive Frame where
  /-- An array. -/
  | array (before : List Value)
  /-- An object, and the key whose value comes next. -/
  | object (before : List (Option String × Value)) (key : Option String)

/-- The value that ends with `v` inside the given frames, which all stay open. -/
def abandon : List Frame → Value → Value
  | [], v => v
  | .array before :: outer, v => abandon outer (.array (v :: before).reverse false)
  | .object before key :: outer, v => abandon outer (.object ((key, v) :: before).reverse false)

mutual

/-- Read on where a value must come. -/
def readValue (stack : List Frame) : List Token → Value × List Token
  | [] => (abandon stack .broken, [])
  | .null :: ts => readOn stack .null ts
  | .bool b :: ts => readOn stack (.bool b) ts
  | .number n :: ts => readOn stack (.number n) ts
  | .string text :: ts => readOn stack (.string text) ts
  | .openArray :: .closeArray :: ts => readOn stack (.array [] true) ts
  | .openArray :: ts => readValue (.array [] :: stack) ts
  | .openObject :: .closeObject :: ts => readOn stack (.object [] true) ts
  | .openObject :: ts => readKey stack [] ts
  | _ :: _ => (abandon stack .broken, [])

/-- Read on where a key must come, in an object with these members. -/
def readKey (stack : List Frame) (before : List (Option String × Value)) :
    List Token → Value × List Token
  | .string key :: .colon :: ts => readValue (.object before key :: stack) ts
  | .string key :: _ => (abandon (.object before key :: stack) .broken, [])
  | _ => (abandon stack (.object before.reverse false), [])

/-- Read on behind a value. -/
def readOn : List Frame → Value → List Token → Value × List Token
  | [], v, ts => (v, ts)
  | .array before :: outer, v, .comma :: ts => readValue (.array (v :: before) :: outer) ts
  | .array before :: outer, v, .closeArray :: ts =>
    readOn outer (.array (v :: before).reverse true) ts
  | .object before key :: outer, v, .comma :: ts => readKey outer ((key, v) :: before) ts
  | .object before key :: outer, v, .closeObject :: ts =>
    readOn outer (.object ((key, v) :: before).reverse true) ts
  | frame :: outer, v, _ => (abandon (frame :: outer) v, [])

end

/-- A value and the tokens behind it. -/
structure Document where
  /-- The value. -/
  value : Value
  /-- What stands behind it, and should not. -/
  trailing : List Token

namespace Document

/-- The document of these tokens. -/
def ofTokens (ts : List Token) : Document :=
  let (value, trailing) := readValue [] ts
  ⟨value, trailing⟩

/-- The document that a text holds. -/
def ofText (text : String) : Document := ofTokens (Token.ofChars text.toList)

/-- What `reader` makes of the value that the text holds, if there is nothing else. -/
def read {α : Type} (reader : Value → Except ReadError α) (text : String) : Except ReadError α :=
  do
    let document := ofText text
    let a ← reader document.value
    if document.trailing.isEmpty then return a else throw .malformedJson

end Document

end LabelAutomaton.Json
