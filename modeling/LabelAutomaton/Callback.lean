/-!
# Entry callbacks

A state may carry callbacks that run whenever the state is entered. A `Callback` is known by its
tag and answers each of its calls, which are numbered from 1, with a `Failure` or with none.

Callbacks are shared by all machines that walk one graph, so the number of a call depends on what
all of them did before. The record of the calls made so far, a list of `Invocation`s, is therefore
the one thing that machines share; `runCallbacks` reads the call numbers off it.
-/

set_option autoImplicit false

namespace LabelAutomaton

/-- The name of a state. -/
abbrev StateName := String

/-- What selects a transition. -/
abbrev Label := String

/-- Why a callback failed. -/
structure Failure where
  /-- What went wrong. -/
  message : String
  /-- What led to it, the nearest cause first. -/
  causes : List String
deriving DecidableEq

/-- The messages of a failure and of all its causes. -/
def Failure.chain (f : Failure) : List String := f.message :: f.causes

/-- A callback that runs when its state is entered. -/
structure Callback where
  /-- The name under which its calls are recorded. -/
  tag : String
  /-- The failure of its call with the given number, from 1, unless that call succeeds. -/
  respond : Nat → Option Failure

namespace Callback

/-- The callback that always succeeds. -/
def succeeding (tag : String) : Callback := ⟨tag, fun _ ↦ none⟩

/-- The callback that always fails. -/
def failing (tag : String) (failure : Failure) : Callback := ⟨tag, fun _ ↦ some failure⟩

/-- The callback that fails in the calls with the given numbers. -/
def failingOn (tag : String) (failure : Failure) (calls : List Nat) : Callback :=
  ⟨tag, fun n ↦ if calls.contains n then some failure else none⟩

end Callback

/-- One call of a callback. -/
structure Invocation where
  /-- The state that was entered. -/
  state : StateName
  /-- The place of the callback among those of the state, from 0. -/
  index : Nat
  /-- The callback's tag. -/
  tag : String
deriving DecidableEq

/-- How often the callback at this place of this state was called. -/
def callCount (calls : List Invocation) (state : StateName) (index : Nat) : Nat :=
  calls.countP fun c ↦ c.state == state && c.index == index

theorem callCount_append (calls calls' : List Invocation) (state : StateName) (index : Nat) :
    callCount (calls ++ calls') state index =
      callCount calls state index + callCount calls' state index :=
  List.countP_append

/-- Run the callbacks of `state` from place `index` on, in order, up to the first that fails.
The result has the calls made and the failure that ended them. -/
def runCallbacks (past : List Invocation) (state : StateName) :
    Nat → List Callback → List Invocation × Option Failure
  | _, [] => ([], none)
  | index, c :: rest =>
    let call : Invocation := ⟨state, index, c.tag⟩
    match c.respond (callCount past state index + 1) with
    | some failure => ([call], some failure)
    | none =>
      let (calls, failure) := runCallbacks past state (index + 1) rest
      (call :: calls, failure)

/-- Callbacks that answer alike in every call end alike, whatever was called before. -/
theorem runCallbacks_of_constant {past past' : List Invocation} {state : StateName} {index : Nat}
    {cs : List Callback} (h : ∀ c ∈ cs, ∀ m n, c.respond m = c.respond n) :
    runCallbacks past state index cs = runCallbacks past' state index cs := by
  induction cs generalizing index with
  | nil => rfl
  | cons c rest ih =>
    rw [runCallbacks, runCallbacks, h c List.mem_cons_self _ (callCount past' state index + 1),
      ih fun c' hc' ↦ h c' (List.mem_cons_of_mem _ hc')]

end LabelAutomaton
