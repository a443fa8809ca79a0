import LabelAutomaton.Graph

/-!
# What runs when a state is entered

`runCallbacks` goes through callbacks one by one. Here the same is said at once, of an `Entry`: the
calls that are made are those of the state's callbacks in their order, cut just behind the first
that fails (`Entry.invocations`), and the failure is that one's own (`Entry.failure?`). A callback
is called, and counts the call, just if all those before it succeed (`Entry.Reaches`).
-/

set_option autoImplicit false

namespace LabelAutomaton

/-- A state that is entered when these calls of callbacks have been made. -/
structure Entry where
  /-- The state. -/
  state : StateName
  /-- The calls made before. -/
  past : List Invocation

namespace Entry

variable (g : Graph) (e : Entry)

/-- The failure of a callback at its place among those of the state, unless it succeeds. -/
def failureOf? (p : Callback × Nat) : Option Failure :=
  p.1.respond (callCount e.past e.state p.2 + 1)

/-- The call of a callback at its place among those of the state. -/
def invocationOf (p : Callback × Nat) : Invocation := ⟨e.state, p.2, p.1.tag⟩

/-- The failure of the first callback that fails. -/
def failure? : Option Failure := (g.callbacks e.state).zipIdx.findSome? e.failureOf?

/-- The calls of the callbacks in their order, cut just behind the first that fails. -/
def invocations : List Invocation :=
  let placed := (g.callbacks e.state).zipIdx
  (placed.take (placed.findIdx (e.failureOf? · |>.isSome) + 1)).map e.invocationOf

/-- All callbacks before this place succeed. -/
def Reaches (index : Nat) : Prop :=
  ∀ p ∈ (g.callbacks e.state).zipIdx.take index, e.failureOf? p = none

instance (index : Nat) : Decidable (e.Reaches g index) :=
  inferInstanceAs (Decidable (∀ p ∈ _, _ = none))

/-- Going through the callbacks gives the calls and the failure of the entry. -/
theorem runCallbacks_eq_zipIdx (index : Nat) (cs : List Callback) :
    runCallbacks e.past e.state index cs =
      (((cs.zipIdx index).take
          ((cs.zipIdx index).findIdx (e.failureOf? · |>.isSome) + 1)).map e.invocationOf,
        (cs.zipIdx index).findSome? e.failureOf?) := by
  induction cs generalizing index with
  | nil => rfl
  | cons c rest ih =>
    rw [runCallbacks, List.zipIdx_cons, List.findIdx_cons, List.findSome?_cons]
    cases hfailure : c.respond (callCount e.past e.state index + 1) with
    | some failure => simp [failureOf?, hfailure, invocationOf]
    | none => simp [failureOf?, hfailure, invocationOf, ih]

theorem runCallbacks_eq :
    runCallbacks e.past e.state 0 (g.callbacks e.state) = (e.invocations g, e.failure? g) :=
  e.runCallbacks_eq_zipIdx 0 _

/-! ## Counting calls -/

/-- All callbacks before a place succeed just if the first that fails, if one does, is not before
it. -/
theorem reaches_iff {index : Nat} (h : index < (g.callbacks e.state).length) :
    e.Reaches g index ↔
      index ≤ (g.callbacks e.state).zipIdx.findIdx (e.failureOf? · |>.isSome) := by
  have hlength : ((g.callbacks e.state).zipIdx.take index).length = index := by
    rw [List.length_take, List.length_zipIdx, Nat.min_eq_left (Nat.le_of_lt h)]
  calc e.Reaches g index
    _ ↔ ∀ p ∈ (g.callbacks e.state).zipIdx.take index, (e.failureOf? p).isSome = false := by
      simp only [Reaches, Option.isSome_eq_false_iff, Option.isNone_iff_eq_none]
    _ ↔ ((g.callbacks e.state).zipIdx.take index).findIdx (e.failureOf? · |>.isSome) = index := by
      rw [← List.findIdx_eq_length, hlength]
    _ ↔ _ := by
      rw [List.findIdx_take]
      omega

/-- **A callback is called once if all before it succeed**, and not at all otherwise. -/
theorem callCount_invocations {state : StateName} {index : Nat}
    (h : index < (g.callbacks state).length) :
    callCount (e.invocations g) state index =
      if e.state = state ∧ e.Reaches g index then 1 else 0 := by
  by_cases hstate : e.state = state
  · subst hstate
    -- the places of the calls are the numbers from 0 on, each once
    have hplaces (n : Nat) : ((g.callbacks e.state).zipIdx.take n).map Prod.snd =
        List.range (min n (g.callbacks e.state).length) := by
      rw [List.map_take, List.zipIdx_map_snd, ← List.range_eq_range', List.take_range]
    have hcount (ps : List (Callback × Nat)) :
        callCount (ps.map e.invocationOf) e.state index = (ps.map Prod.snd).count index := by
      simp [callCount, List.countP_map, List.count, Function.comp_def, invocationOf]
    rw [invocations, hcount, hplaces, List.nodup_range.count]
    refine ite_congr (propext ?_) (fun _ ↦ rfl) fun _ ↦ rfl
    simp only [List.mem_range, e.reaches_iff g h, true_and]
    omega
  · rw [if_neg fun h ↦ hstate h.1, callCount, List.countP_eq_zero]
    intro i hi
    obtain ⟨p, -, rfl⟩ := List.mem_map.1 hi
    simp [invocationOf, hstate]

end Entry

end LabelAutomaton
