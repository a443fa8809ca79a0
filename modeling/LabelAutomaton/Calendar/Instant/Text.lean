import LabelAutomaton.Calendar.Instant

/-!
# Instants as text

`Instant.toText` writes an instant as `2000-01-31T09:05:00.25Z` would be read: in coordinated
universal time, with a fraction of three, six or nine digits where one is needed.

`Instant.ofText?` reads more than is written: white space around the parts, numbers with fewer
digits, a space between day and time, and any offset from universal time below a day. What it
returns is the instant in universal time, so two texts that differ only in the offset read alike.
-/

set_option autoImplicit false

namespace LabelAutomaton

/-! ## White space -/

/-- The characters with the Unicode property White_Space. -/
def blanks : List Char :=
  ['\t', '\n', '\x0b', '\x0c', '\r', ' ', '\u0085', '\u00a0', '\u1680', '\u2000', '\u2001',
    '\u2002', '\u2003', '\u2004', '\u2005', '\u2006', '\u2007', '\u2008', '\u2009', '\u200a',
    '\u2028', '\u2029', '\u202f', '\u205f', '\u3000']

/-- Whether the character is white space. -/
def isBlank (c : Char) : Bool := blanks.contains c

/-- The text without the white space in front of it. -/
def trimLeft (cs : List Char) : List Char := cs.dropWhile isBlank

namespace Instant

/-! ## Writing -/

/-- A number in decimal with zeros in front, so that there are at least `width` digits. -/
def padded (width n : Nat) : List Char := (Nat.toDigits 10 n).leftpad width '0'

/-- A year in four digits; outside 0 to 9999 it also has a sign. -/
def yearText (year : Int) : List Char :=
  if 0 ≤ year ∧ year ≤ 9999 then padded 4 year.natAbs
  else (if year < 0 then '-' else '+') :: padded 4 year.natAbs

/-- The nanoseconds as the shortest exact fraction of 0, 3, 6 or 9 digits. -/
def fractionText (nano : Nat) : List Char :=
  if nano = 0 then []
  else if nano % 1000000 = 0 then '.' :: padded 3 (nano / 1000000)
  else if nano % 1000 = 0 then '.' :: padded 6 (nano / 1000)
  else '.' :: padded 9 nano

/-- The characters that write an instant. -/
def toChars (t : Instant) : List Char :=
  yearText t.date.year ++ '-' :: padded 2 t.date.month ++ '-' :: padded 2 t.date.day
    ++ 'T' :: padded 2 t.hour ++ ':' :: padded 2 t.minute ++ ':' :: padded 2 t.second
    ++ fractionText t.nano ++ ['Z']

/-- The text of an instant. -/
def toText (t : Instant) : String := String.ofList t.toChars

/-! ## Reading

Each reader takes the characters that are left and returns what it has read with the rest. -/

/-- A number of at least one and at most `width` digits. -/
def readDigits (width : Nat) (cs : List Char) : Option (Nat × List Char) :=
  let digits := (cs.take width).takeWhile Char.isDigit
  if digits.isEmpty then none else some (Nat.ofDigitChars 10 digits 0, cs.drop digits.length)

/-- A number as `readDigits` has it, after white space. -/
def readNumber (width : Nat) (cs : List Char) : Option (Nat × List Char) :=
  readDigits width (trimLeft cs)

/-- The given mark, after white space. -/
def readMark (mark : Char) (cs : List Char) : Option (List Char) :=
  match trimLeft cs with
  | [] => none
  | c :: rest => if c = mark then some rest else none

/-- A year: up to four digits, or a sign and any number of digits. -/
def readYear (cs : List Char) : Option (Int × List Char) :=
  match trimLeft cs with
  | '-' :: rest => (readDigits rest.length rest).map fun (n, rest) ↦ (-(n : Int), rest)
  | '+' :: rest => (readDigits rest.length rest).map fun (n, rest) ↦ ((n : Int), rest)
  | rest => (readDigits 4 rest).map fun (n, rest) ↦ ((n : Int), rest)

/-- A day that exists. -/
def readDate (cs : List Char) : Option (Date × List Char) := do
  let (year, cs) ← readYear cs
  let cs ← readMark '-' cs
  let (month, cs) ← readNumber 2 cs
  let cs ← readMark '-' cs
  let (day, cs) ← readNumber 2 cs
  let date ← Date.of? year month day
  return (date, cs)

/-- What separates a day from a time. -/
def readSeparator : List Char → Option (List Char)
  | 'T' :: rest => some rest
  | 't' :: rest => some rest
  | ' ' :: rest => some rest
  | _ => none

/-- The nanoseconds of a fraction, none being 0. Digits after the ninth have no influence. -/
def readFraction : List Char → Option (Nat × List Char)
  | '.' :: cs =>
    let digits := cs.takeWhile Char.isDigit
    let used := digits.take 9
    if digits.isEmpty then none
    else some (Nat.ofDigitChars 10 used 0 * Nat.pow 10 (9 - used.length), cs.drop digits.length)
  | cs => some (0, cs)

/-- Exactly two digits. -/
def readTwoDigits : List Char → Option (Nat × List Char)
  | c :: d :: rest =>
    if c.isDigit && d.isDigit then some (Nat.ofDigitChars 10 [c, d] 0, rest) else none
  | _ => none

/-- The hours and minutes of an offset, in minutes. -/
def readClock (cs : List Char) : Option (Nat × List Char) := do
  let (hours, cs) ← readTwoDigits cs
  let (minutes, cs) ← readTwoDigits (cs.dropWhile fun c ↦ c == ':' || isBlank c)
  if minutes < 60 ∧ hours * 60 + minutes < 1440 then
    return (hours * 60 + minutes, cs)
  else none

/-- An offset from universal time in minutes. -/
def readOffset (cs : List Char) : Option (Int × List Char) :=
  match trimLeft cs with
  | 'Z' :: rest => some (0, rest)
  | 'z' :: rest => some (0, rest)
  | '+' :: rest => (readClock rest).map fun (n, rest) ↦ ((n : Int), rest)
  | '-' :: rest => (readClock rest).map fun (n, rest) ↦ (-(n : Int), rest)
  | '\u2212' :: rest => (readClock rest).map fun (n, rest) ↦ (-(n : Int), rest)
  | u :: t :: c :: rest =>
    if [u, t, c].map Char.toLower = ['u', 't', 'c'] then some (0, rest) else none
  | _ => none

/-- The instant that the characters name, if they name one. -/
def ofChars? (cs : List Char) : Option Instant := do
  let (date, cs) ← readDate cs
  let cs ← readSeparator cs
  let (hour, cs) ← readNumber 2 cs
  let cs ← readMark ':' cs
  let (minute, cs) ← readNumber 2 cs
  let cs ← readMark ':' cs
  let (second, cs) ← readNumber 2 cs
  let (nano, cs) ← readFraction cs
  let (offset, cs) ← readOffset cs
  let here ← of? date hour minute second nano
  if (trimLeft cs).isEmpty then here.ofLocal? offset else none

/-- The instant that the text names, if it names one. -/
def ofText? (text : String) : Option Instant := ofChars? text.toList

end Instant

end LabelAutomaton
