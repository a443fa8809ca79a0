import LabelAutomaton.Json.Literal
import LabelAutomaton.Json.Numeral

/-!
# The tokens of JSON

`Token.ofChars` cuts a text into tokens. White space between them is dropped. Where the text stops
being JSON, the list ends with the token `bad`, so the tokens say how far the text is good and no
more.
-/

set_option autoImplicit false

namespace LabelAutomaton.Json

/-- A token of JSON. -/
inductive Token where
  /-- The bracket `[`. -/
  | openArray
  /-- The bracket `]`. -/
  | closeArray
  /-- The brace that opens an object. -/
  | openObject
  /-- The brace that closes an object. -/
  | closeObject
  /-- The mark `,`. -/
  | comma
  /-- The mark `:`. -/
  | colon
  /-- The word `null`. -/
  | null
  /-- One of the words `true` and `false`. -/
  | bool (b : Bool)
  /-- A number. -/
  | number (n : Numeral)
  /-- A string with its text; one with an unpaired surrogate has none. -/
  | string (text : Option String)
  /-- Something that is no token. -/
  | bad
deriving DecidableEq

namespace Token

/-- Whether the character may stand between tokens. -/
def isSpace (c : Char) : Bool := c == ' ' || c == '\t' || c == '\n' || c == '\r'

/-- What follows the word at the front. -/
def readWord (word cs : List Char) : Option (List Char) :=
  if word.isPrefixOf cs then some (cs.drop word.length) else none

/-- The token that begins with the character `c`, and what follows it. -/
def read (c : Char) (cs : List Char) : Option (Token × List Char) :=
  match c with
  | '[' => some (openArray, cs)
  | ']' => some (closeArray, cs)
  | '{' => some (openObject, cs)
  | '}' => some (closeObject, cs)
  | ',' => some (comma, cs)
  | ':' => some (colon, cs)
  | 'n' => (readWord ['u', 'l', 'l'] cs).map fun rest ↦ (null, rest)
  | 't' => (readWord ['r', 'u', 'e'] cs).map fun rest ↦ (bool true, rest)
  | 'f' => (readWord ['a', 'l', 's', 'e'] cs).map fun rest ↦ (bool false, rest)
  | '"' => (Literal.pieces cs).map fun (ps, rest) ↦ (string (Literal.text? ps), rest)
  | c => (Numeral.read (c :: cs)).map fun (n, rest) ↦ (number n, rest)

theorem length_readWord_le {word cs rest : List Char} (h : readWord word cs = some rest) :
    rest.length ≤ cs.length := by
  rw [readWord] at h
  split at h
  · obtain rfl := Option.some.inj h
    rw [List.length_drop]
    omega
  · simp at h

/-- A token takes at least the character with which it begins. -/
theorem length_read_le {c : Char} {cs rest : List Char} {t : Token}
    (h : read c cs = some (t, rest)) : rest.length ≤ cs.length := by
  rw [read.eq_def] at h
  split at h
  case h_7 | h_8 | h_9 =>
    simp only [Option.map_eq_some_iff, Prod.mk.injEq] at h
    obtain ⟨_, h', _, rfl⟩ := h
    exact length_readWord_le h'
  case h_10 =>
    simp only [Option.map_eq_some_iff, Prod.exists, Prod.mk.injEq] at h
    obtain ⟨_, _, h', _, rfl⟩ := h
    exact Nat.le_of_lt (Literal.length_pieces_lt h')
  case h_11 =>
    simp only [Option.map_eq_some_iff, Prod.exists, Prod.mk.injEq] at h
    obtain ⟨_, _, h', _, rfl⟩ := h
    have := Numeral.length_read_lt h'
    simp only [List.length_cons] at this
    omega
  all_goals
    simp only [Option.some.injEq, Prod.mk.injEq] at h
    exact Nat.le_of_eq (congrArg List.length h.2.symm)

/-- The tokens of a text, up to the first place where there is none. -/
def ofChars : List Char → List Token
  | [] => []
  | c :: cs =>
    if isSpace c then ofChars cs
    else
      match _h : read c cs with
      | none => [bad]
      | some (t, rest) => t :: ofChars rest
termination_by cs => cs.length
decreasing_by
  · simp
  · have := length_read_le _h
    simp only [List.length_cons]
    omega

/-- The characters of a token. -/
def toChars : Token → List Char
  | openArray => ['[']
  | closeArray => [']']
  | openObject => ['{']
  | closeObject => ['}']
  | comma => [',']
  | colon => [':']
  | null => ['n', 'u', 'l', 'l']
  | bool true => ['t', 'r', 'u', 'e']
  | bool false => ['f', 'a', 'l', 's', 'e']
  | number n => n.toChars
  | string (some text) => Literal.toChars text
  | string none => []
  | bad => []

end Token

end LabelAutomaton.Json
