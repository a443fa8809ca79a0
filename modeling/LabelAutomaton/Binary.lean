import LabelAutomaton.ReadError

/-!
# Bytes

The binary form of a value is the binary forms of its parts, one after the other. Numbers have a
fixed width, the lowest byte first. A string has its length in bytes as a number of 64 bits, then
its characters in UTF-8.

A reader takes what it needs from the front of the bytes. It fails with `unexpectedEnd` if it
needs more than there is.
-/

set_option autoImplicit false

namespace LabelAutomaton.Binary

/-- What reads a value from the front of bytes, and leaves the rest. -/
abbrev Reader (α : Type) := StateT (List UInt8) (Except ReadError) α

/-! ## Numbers -/

/-- The lowest `width` bytes of a number, the lowest first. -/
def littleEndian : Nat → Nat → List UInt8
  | 0, _ => []
  | width + 1, n => UInt8.ofNat n :: littleEndian width (n / 256)

/-- The number of bytes, the lowest first. -/
def ofLittleEndian : List UInt8 → Nat
  | [] => 0
  | b :: rest => b.toNat + 256 * ofLittleEndian rest

@[simp] theorem length_littleEndian (width n : Nat) : (littleEndian width n).length = width := by
  induction width generalizing n with
  | zero => rfl
  | succ width ih => simp [littleEndian, ih]

theorem ofLittleEndian_littleEndian (width n : Nat) :
    ofLittleEndian (littleEndian width n) = n % Nat.pow 256 width := by
  induction width generalizing n with
  | zero => simp [littleEndian, ofLittleEndian, Nat.mod_one]
  | succ width ih =>
    simp only [littleEndian, ofLittleEndian, ih, UInt8.toNat_ofNat']
    rw [show Nat.pow 256 (width + 1) = 256 * Nat.pow 256 width from Nat.pow_succ', Nat.mod_mul]

/-- Take the first `n` bytes. -/
def readBytes (n : Nat) : Reader (List UInt8) := fun bytes ↦
  if n ≤ bytes.length then .ok (bytes.take n, bytes.drop n) else .error .unexpectedEnd

/-- Read a number of this many bytes. -/
def readNumber (width : Nat) : Reader Nat := do
  return ofLittleEndian (← readBytes width)

/-- Read a word of 32 bits. -/
def readWord32 : Reader UInt32 := do
  return UInt32.ofNat (← readNumber 4)

/-- Read a word of 64 bits. -/
def readWord64 : Reader UInt64 := do
  return UInt64.ofNat (← readNumber 8)

/-- The bytes of a word of 32 bits. -/
def ofWord32 (n : UInt32) : List UInt8 := littleEndian 4 n.toNat

/-- The bytes of a word of 64 bits. -/
def ofWord64 (n : UInt64) : List UInt8 := littleEndian 8 n.toNat

/-! ## Strings, options and lists -/

/-- The bytes of a string. -/
def ofString (text : String) : List UInt8 :=
  let bytes := text.toUTF8.data.toList
  littleEndian 8 bytes.length ++ bytes

/-- Read a string. -/
def readString : Reader String := do
  let size ← readNumber 8
  let bytes ← readBytes size
  match String.fromUTF8? ⟨bytes.toArray⟩ with
  | some text => return text
  | none => throw .invalidUtf8

/-- The bytes of an optional value: 0, or 1 and those of the value. -/
def ofOption {α : Type} (write : α → List UInt8) : Option α → List UInt8
  | none => [0]
  | some a => 1 :: write a

/-- Read an optional value. -/
def readOption {α : Type} (reader : Reader α) : Reader (Option α) := do
  match (← readNumber 1) with
  | 0 => return none
  | 1 => some <$> reader
  | _ => throw .invalidTag

/-- The bytes of a list: its length as a number of 64 bits, then those of the elements. -/
def ofList {α : Type} (write : α → List UInt8) (l : List α) : List UInt8 :=
  littleEndian 8 l.length ++ l.flatMap write

/-- Read this many values. -/
def readMany {α : Type} (reader : Reader α) : Nat → Reader (List α)
  | 0 => return []
  | n + 1 => do
    let a ← reader
    let rest ← readMany reader n
    return a :: rest

/-- Read a list. -/
def readList {α : Type} (reader : Reader α) : Reader (List α) := do
  let size ← readNumber 8
  readMany reader size

/-- What a reader makes of the front of the bytes. -/
def Reader.run {α : Type} (reader : Reader α) (bytes : List UInt8) : Except ReadError α :=
  (StateT.run reader bytes).map (·.1)

end LabelAutomaton.Binary
