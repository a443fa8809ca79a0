import LabelAutomaton.Binary
import LabelAutomaton.Calendar.Instant.Text
import LabelAutomaton.Checkpoint

/-!
# Checkpoints as bytes

The fields of a checkpoint follow each other in their order, and so do those of its history and of
the steps. Nothing tells them apart: each says itself where it ends, a text and a list by the length
in front, a choice by the number of its case. Instants are written as their text.

`Checkpoint.ofBytes` reads the fields and then looks at the version. Bytes behind the last field
have no influence.
-/

set_option autoImplicit false

namespace LabelAutomaton

open Binary

/-- The bytes of an instant. -/
def Instant.toBytes (t : Instant) : List UInt8 := ofString t.toText

/-- Read an instant. -/
def Instant.readBytes : Binary.Reader Instant := do
  match Instant.ofText? (← readString) with
  | some t => return t
  | none => throw .badTimestamp

/-- The bytes of a run state. -/
def RunState.toBytes : RunState → List UInt8
  | active => ofWord32 0
  | finished => ofWord32 1

/-- Read a run state. -/
def RunState.readBytes : Binary.Reader RunState := do
  match (← readNumber 4) with
  | 0 => return active
  | 1 => return finished
  | _ => throw .invalidValue

/-- The bytes of a step. -/
def Step.toBytes (s : Step) : List UInt8 :=
  ofString s.source ++ ofString s.label ++ ofString s.target ++ s.time.toBytes

/-- Read a step. -/
def Step.readBytes : Binary.Reader Step := do
  let source ← readString
  let label ← readString
  let target ← readString
  let time ← Instant.readBytes
  return ⟨source, label, target, time⟩

/-- The bytes of a history. -/
def History.toBytes (h : History) : List UInt8 :=
  ofList Step.toBytes h.steps ++ ofOption ofWord64 h.limit

/-- Read a history. -/
def History.readBytes : Binary.Reader History := do
  let steps ← readList Step.readBytes
  let limit ← readOption readWord64
  return ⟨steps, limit⟩

namespace Checkpoint

/-- The bytes of a checkpoint. -/
def toBytes (c : Checkpoint) : List UInt8 :=
  ofWord32 c.version ++ ofString c.id ++ c.time.toBytes ++ ofString c.initial
    ++ ofString c.current ++ c.runState.toBytes ++ c.history.toBytes

/-- Read a checkpoint of any version. -/
def readBytes : Binary.Reader Checkpoint := do
  let version ← readWord32
  let id ← readString
  let time ← Instant.readBytes
  let initial ← readString
  let current ← readString
  let runState ← RunState.readBytes
  let history ← History.readBytes
  return ⟨version, id, time, initial, current, runState, history⟩

/-- The checkpoint at the front of the bytes. The version is looked at when all else is well. -/
def ofBytes (bytes : List UInt8) : Except CheckpointError Checkpoint :=
  ofRead (readBytes.run bytes)

end Checkpoint

end LabelAutomaton
