import LabelAutomaton.Text.Extending
import LabelAutomaton.Text.Unassigned

/-!
# Quoted text

`quoted` shows a text between quotes on one line. Quotes, backslashes and line breaks are escaped,
and so are the characters that, standing alone, would not be seen for themselves. There are four
kinds of those, and `isUnseen` knows them all: blank and invisible characters, private characters,
extending characters, and characters that are not assigned. The last two have long tables, which
stand in modules of their own.
-/

set_option autoImplicit false

namespace LabelAutomaton

/-! ## Unseen characters -/

/-- The ranges of blank and invisible characters: controls, format characters, all spaces but the
plain one, line and paragraph separators, and the fillers among the letters. They are the
characters of the Unicode categories Cc, Cf, Zs, Zl and Zp and of the property
Default_Ignorable_Code_Point, version 17, which are neither extending nor unassigned. -/
def invisibleRanges : List (Nat × Nat) :=
  [(0x0, 0x1F), (0x7F, 0xA0), (0xAD, 0xAD), (0x600, 0x605), (0x61C, 0x61C), (0x6DD, 0x6DD),
    (0x70F, 0x70F), (0x890, 0x891), (0x8E2, 0x8E2), (0x115F, 0x1160), (0x1680, 0x1680),
    (0x180E, 0x180E), (0x2000, 0x200B), (0x200D, 0x200F), (0x2028, 0x202F), (0x205F, 0x2064),
    (0x2066, 0x206F), (0x3000, 0x3000), (0x3164, 0x3164), (0xFEFF, 0xFEFF), (0xFFA0, 0xFFA0),
    (0xFFF9, 0xFFFB), (0x110BD, 0x110BD), (0x110CD, 0x110CD), (0x13430, 0x1343F),
    (0x1BCA0, 0x1BCA3), (0x1D173, 0x1D17A), (0xE0001, 0xE0001)]

/-- The ranges of private characters, the Unicode category Co. -/
def privateRanges : List (Nat × Nat) :=
  [(0xE000, 0xF8FF), (0xF0000, 0xFFFFD), (0x100000, 0x10FFFD)]

/-- Whether the code point lies in one of the ranges. -/
def inRanges (ranges : List (Nat × Nat)) (n : Nat) : Bool :=
  ranges.any fun (first, last) ↦ decide (first ≤ n) && decide (n ≤ last)

/-- Whether the character is not seen for itself. -/
def isUnseen (c : Char) : Bool :=
  inRanges invisibleRanges c.toNat || inRanges privateRanges c.toNat
    || inRanges extendingRanges c.toNat || inRanges unassignedRanges c.toNat

/-! ## Between quotes -/

/-- How a character is shown between quotes. -/
def quotedChar (c : Char) : List Char :=
  if c = '"' ∨ c = '\\' then ['\\', c]
  else if c = '\x00' then ['\\', '0']
  else if c = '\t' then ['\\', 't']
  else if c = '\n' then ['\\', 'n']
  else if c = '\r' then ['\\', 'r']
  else if isUnseen c then ['\\', 'u', '{'] ++ Nat.toDigits 16 c.toNat ++ ['}']
  else [c]

/-- The text between quotes. -/
def quoted (text : String) : String :=
  String.ofList ('"' :: text.toList.flatMap quotedChar ++ ['"'])

end LabelAutomaton
