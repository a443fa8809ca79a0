import LabelAutomaton.Calendar.Instant
import LabelAutomaton.Callback

/-!
# Run histories

A `History` is the list of steps that a run has taken, oldest first, with an optional limit on
their number. `History.record` appends a step and gives up the oldest ones to stay within the
limit; a limit of 0 records nothing.
-/

set_option autoImplicit false

namespace LabelAutomaton

/-- A transition that was taken. -/
structure Step where
  /-- The state that was left. -/
  source : StateName
  /-- The label that selected the transition. -/
  label : Label
  /-- The state that was entered. -/
  target : StateName
  /-- When this happened. -/
  time : Instant
deriving DecidableEq

/-- The steps of a run, oldest first, and the limit on their number. -/
structure History where
  /-- The steps kept. -/
  steps : List Step
  /-- The most steps that are kept when one is added; without a limit all are. -/
  limit : Option UInt64
deriving DecidableEq

namespace History

/-- The history without steps. -/
def empty (limit : Option UInt64) : History := ⟨[], limit⟩

/-- The number of steps kept. -/
def size (h : History) : Nat := h.steps.length

/-- Append a step. With a limit, the oldest steps make room for it; a limit of 0 leaves no room. -/
def record (h : History) (step : Step) : History :=
  match h.limit with
  | none => { h with steps := h.steps ++ [step] }
  | some limit =>
    if limit = 0 then h
    else { h with steps := h.steps.drop (h.size + 1 - limit.toNat) ++ [step] }

/-- Append steps, one after the other. -/
def recordAll (h : History) (steps : List Step) : History := steps.foldl record h

@[simp] theorem limit_record (h : History) (step : Step) : (h.record step).limit = h.limit := by
  rw [record]
  split
  · rfl
  · split <;> rfl

@[simp] theorem limit_recordAll (h : History) (steps : List Step) :
    (h.recordAll steps).limit = h.limit := by
  induction steps generalizing h with
  | nil => rfl
  | cons s rest ih => exact (ih (h.record s)).trans (limit_record h s)

theorem steps_record_of_none {h : History} (hlimit : h.limit = none) (step : Step) :
    (h.record step).steps = h.steps ++ [step] := by
  rw [record, hlimit]

/-- The labels of the steps. -/
def labels (h : History) : List Label := h.steps.map (·.label)

/-- The states passed through: where the first step began, then where each step led. -/
def path (h : History) : List StateName :=
  match h.steps with
  | [] => []
  | first :: _ => first.source :: h.steps.map (·.target)

/-- The time from the first step to the last, unless there is no step or time ran backwards. -/
def elapsed? (h : History) : Option Duration :=
  match h.steps.head?, h.steps.getLast? with
  | some first, some last => last.time.elapsed? first.time
  | _, _ => none

end History

end LabelAutomaton
