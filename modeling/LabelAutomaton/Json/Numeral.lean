/-!
# Numbers in JSON

A `Numeral` is a number as it is spelled: a sign, whole digits, digits of a fraction and an
exponent. Documents of this library hold integers only, so two questions are asked of a numeral:
which integer it is (`integer?`), and whether it would be too large for a double of 64 bits
(`overflows`).
-/

set_option autoImplicit false

namespace LabelAutomaton.Json

/-- A number as it is spelled. -/
structure Numeral where
  /-- Whether there is a minus in front. -/
  negative : Bool
  /-- The digits before the point. -/
  whole : List Char
  /-- The digits behind the point; a numeral without a point has none. -/
  fraction : List Char
  /-- The power of ten that is written behind it. -/
  exponent : Option Int
deriving DecidableEq

namespace Numeral

/-- The numeral of a natural number. -/
def ofNat (n : Nat) : Numeral := ⟨false, Nat.toDigits 10 n, [], none⟩

/-! ## Reading -/

/-- The digits at the front, of which there must be one. -/
def readDigits (cs : List Char) : Option (List Char × List Char) :=
  match cs.takeWhile Char.isDigit with
  | [] => none
  | digits => some (digits, cs.drop digits.length)

/-- The digits before the point. Only a number below 1 begins with a zero. -/
def readWhole (cs : List Char) : Option (List Char × List Char) :=
  match readDigits cs with
  | some ('0' :: _ :: _, _) => none
  | digits? => digits?

/-- The digits behind the point, if there is one. -/
def readFraction : List Char → Option (List Char × List Char)
  | '.' :: cs => readDigits cs
  | cs => some ([], cs)

/-- The digits at the front as a number. -/
def readNat (cs : List Char) : Option (Nat × List Char) :=
  (readDigits cs).map fun (digits, rest) ↦ (Nat.ofDigitChars 10 digits 0, rest)

/-- The number of an exponent, which may have a sign. -/
def readPower : List Char → Option (Int × List Char)
  | '-' :: cs => (readNat cs).map fun (n, rest) ↦ (-(n : Int), rest)
  | '+' :: cs => (readNat cs).map fun (n, rest) ↦ ((n : Int), rest)
  | cs => (readNat cs).map fun (n, rest) ↦ ((n : Int), rest)

/-- The exponent, if there is one. -/
def readExponent : List Char → Option (Option Int × List Char)
  | 'e' :: cs => (readPower cs).map fun (n, rest) ↦ (some n, rest)
  | 'E' :: cs => (readPower cs).map fun (n, rest) ↦ (some n, rest)
  | cs => some (none, cs)

/-- The sign, if there is one. -/
def readSign : List Char → Bool × List Char
  | '-' :: cs => (true, cs)
  | cs => (false, cs)

/-- The numeral at the front, as long as it can be, and what follows it. -/
def read (cs : List Char) : Option (Numeral × List Char) := do
  let (negative, cs) := readSign cs
  let (whole, cs) ← readWhole cs
  let (fraction, cs) ← readFraction cs
  let (exponent, cs) ← readExponent cs
  return (⟨negative, whole, fraction, exponent⟩, cs)

/-! What is read is taken from the front. -/

theorem length_readDigits_lt {cs ds rest : List Char} (h : readDigits cs = some (ds, rest)) :
    rest.length < cs.length := by
  rw [readDigits] at h
  split at h
  · simp at h
  · rename_i digits hne
    simp only [Option.some.injEq, Prod.mk.injEq] at h
    obtain ⟨_, rfl⟩ := h
    have hpos : 0 < (cs.takeWhile Char.isDigit).length :=
      List.length_pos_iff.2 fun hnil ↦ hne hnil
    have hle := (List.takeWhile_sublist (p := Char.isDigit) (l := cs)).length_le
    rw [List.length_drop]
    omega

theorem length_readFraction_le {cs ds rest : List Char}
    (h : readFraction cs = some (ds, rest)) : rest.length ≤ cs.length := by
  rw [readFraction.eq_def] at h
  split at h
  · have := length_readDigits_lt h
    simp only [List.length_cons]
    omega
  · simp only [Option.some.injEq, Prod.mk.injEq] at h
    exact Nat.le_of_eq (congrArg List.length h.2.symm)

theorem length_readNat_lt {cs rest : List Char} {n : Nat}
    (h : readNat cs = some (n, rest)) : rest.length < cs.length := by
  simp only [readNat, Option.map_eq_some_iff, Prod.exists, Prod.mk.injEq] at h
  obtain ⟨_, _, h', _, rfl⟩ := h
  exact length_readDigits_lt h'

theorem length_readPower_lt {cs rest : List Char} {n : Int}
    (h : readPower cs = some (n, rest)) : rest.length < cs.length := by
  rw [readPower.eq_def] at h
  split at h <;> simp only [Option.map_eq_some_iff, Prod.exists, Prod.mk.injEq] at h <;>
    obtain ⟨_, _, h', _, rfl⟩ := h
  · exact Nat.lt_succ_of_lt (length_readNat_lt h')
  · exact Nat.lt_succ_of_lt (length_readNat_lt h')
  · exact length_readNat_lt h'

theorem length_readExponent_le {cs rest : List Char} {n : Option Int}
    (h : readExponent cs = some (n, rest)) : rest.length ≤ cs.length := by
  rw [readExponent.eq_def] at h
  split at h
  · simp only [Option.map_eq_some_iff, Prod.exists, Prod.mk.injEq] at h
    obtain ⟨_, _, h', _, rfl⟩ := h
    have := length_readPower_lt h'
    simp only [List.length_cons]
    omega
  · simp only [Option.map_eq_some_iff, Prod.exists, Prod.mk.injEq] at h
    obtain ⟨_, _, h', _, rfl⟩ := h
    have := length_readPower_lt h'
    simp only [List.length_cons]
    omega
  · simp only [Option.some.injEq, Prod.mk.injEq] at h
    exact Nat.le_of_eq (congrArg List.length h.2.symm)

theorem length_readWhole_lt {cs ds rest : List Char} (h : readWhole cs = some (ds, rest)) :
    rest.length < cs.length := by
  rw [readWhole] at h
  split at h
  · simp at h
  · exact length_readDigits_lt h

theorem length_read_lt {cs rest : List Char} {n : Numeral}
    (h : read cs = some (n, rest)) : rest.length < cs.length := by
  have hsign : (readSign cs).2.length ≤ cs.length := by
    rw [readSign.eq_def]
    split <;> simp
  simp only [read, Option.bind_eq_bind, Option.bind_eq_some_iff, Option.pure_def,
    Option.some.injEq, Prod.mk.injEq, Prod.exists] at h
  obtain ⟨_, r₁, h₁, _, r₂, h₂, _, r₃, h₃, _, rfl⟩ := h
  have := length_readWhole_lt h₁
  have := length_readFraction_le h₂
  have := length_readExponent_le h₃
  omega

/-! ## Integers -/

/-- The whole digits as a number. -/
def magnitude (n : Numeral) : Nat := Nat.ofDigitChars 10 n.whole 0

/-- The integer that is spelled. A numeral with a point or an exponent spells none, nor does a
negative zero, nor a number outside the range of signed and unsigned words of 64 bits. -/
def integer? (n : Numeral) : Option Int :=
  if n.fraction ≠ [] ∨ n.exponent.isSome then none
  else if n.negative then
    if 0 < n.magnitude ∧ n.magnitude ≤ UInt64.size / 2 then some (-(n.magnitude : Int)) else none
  else if n.magnitude < UInt64.size then some n.magnitude
  else none

/-! ## Size -/

/-- The nearest number with 53 significant bits, the even one of two. -/
def nearestDouble (n : Nat) : Nat :=
  let unit := 1 <<< (Nat.log2 n - 52)
  let down := n / unit
  let rest := n % unit
  if unit < 2 * rest ∨ unit = 2 * rest ∧ down % 2 = 1 then (down + 1) * unit else down * unit

/-- Append digits to a significand as long as it stays below 2⁶⁴, and return the digits that do
not fit. -/
def extend (significand : Nat) : List Char → Nat × List Char
  | [] => (significand, [])
  | c :: cs =>
    let next := significand * 10 + (c.toNat - '0'.toNat)
    if next < UInt64.size then extend next cs else (significand, c :: cs)

/-- Whether the numeral is too large for a double. The significand is cut to 64 bits and rounded,
then multiplied by the rounded power of ten; the product overflows if it rounds to 2¹⁰²⁴. -/
def overflows (n : Numeral) : Bool :=
  let (whole, dropped) := extend 0 n.whole
  let (significand, unused) := extend whole n.fraction
  let power : Int :=
    dropped.length - (n.fraction.length - unused.length : Nat) + n.exponent.getD 0
  significand != 0 &&
    (decide (308 < power) ||
      (decide (0 ≤ power) &&
        decide ((1 <<< 1024) - (1 <<< 970) ≤
          nearestDouble significand * nearestDouble (Nat.pow 10 power.toNat))))

/-! ## Writing -/

/-- The characters of a numeral. -/
def toChars (n : Numeral) : List Char :=
  (if n.negative then ['-'] else []) ++ n.whole
    ++ (if n.fraction = [] then [] else '.' :: n.fraction)
    ++ match n.exponent with
      | none => []
      | some (.ofNat k) => 'e' :: Nat.toDigits 10 k
      | some (.negSucc k) => 'e' :: '-' :: Nat.toDigits 10 (k + 1)

end Numeral

end LabelAutomaton.Json
