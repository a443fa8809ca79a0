/-!
# Why a document could not be read

Documents are texts or bytes. The readers of both report the first problem that they meet, as a
`ReadError`: the first eight are met in texts, and of these a number out of range and a bad
timestamp in bytes too; the last three are met in bytes alone. `ReadError.message` puts them into
words.
-/

set_option autoImplicit false

namespace LabelAutomaton

/-- The first problem that was met while a document was read. -/
inductive ReadError where
  /-- The text is not a JSON document. -/
  | malformedJson
  /-- A value has a type that cannot stand there. -/
  | invalidType
  /-- A number is out of range. -/
  | invalidValue
  /-- An array has too few elements. -/
  | invalidLength
  /-- A text names no instant. -/
  | badTimestamp
  /-- A field is not there. -/
  | missingField (name : String)
  /-- A field is there twice. -/
  | duplicateField (name : String)
  /-- A name is not one of those of the run states. -/
  | unknownRunState (name : String)
  /-- The bytes end too early. -/
  | unexpectedEnd
  /-- Bytes are not UTF-8. -/
  | invalidUtf8
  /-- The byte before an optional value is neither 0 nor 1. -/
  | invalidTag
deriving DecidableEq

/-- The text of an error. -/
def ReadError.message : ReadError → String
  | malformedJson => "malformed json"
  | invalidType => "invalid type"
  | invalidValue => "invalid value"
  | invalidLength => "invalid length"
  | badTimestamp => "bad timestamp"
  | missingField name => "missing field `" ++ name ++ "`"
  | duplicateField name => "duplicate field `" ++ name ++ "`"
  | unknownRunState name => "unknown variant `" ++ name ++ "`, expected `Active` or `Finished`"
  | unexpectedEnd => "unexpected end"
  | invalidUtf8 => "invalid utf-8"
  | invalidTag => "invalid tag"

end LabelAutomaton
