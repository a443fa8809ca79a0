import LabelAutomaton.History
import Mathlib.Data.List.DropRight

/-!
# What a history keeps

A history with a limit keeps the end of the list of steps that it was given: `History.keep` is that
end. Recording respects it (`History.steps_recordAll`), as long as the history is within its limit
to begin with. A limit of 0 is why this is needed: such a history refuses new steps, and would hold
on to old ones if it had any.
-/

set_option autoImplicit false

namespace LabelAutomaton

namespace History

/-! ## The end of a list -/

section Keep

variable {α : Type} (limit : Option UInt64)

/-- The end of the list, as far as the limit lets it be kept. -/
def keep (l : List α) : List α := limit.elim l fun n ↦ l.rtake n.toNat

theorem keep_eq_self {l : List α} (h : ∀ n, limit = some n → l.length ≤ n.toNat) :
    keep limit l = l := by
  cases limit with
  | none => rfl
  | some n =>
    have hle := h n rfl
    rw [keep, Option.elim_some, List.rtake, Nat.sub_eq_zero_of_le hle, List.drop_zero]

theorem keep_suffix (l : List α) : keep limit l <:+ l := by
  cases limit with
  | none => exact List.suffix_refl l
  | some n => exact List.drop_suffix _ l

theorem length_keep (l : List α) :
    (keep limit l).length = limit.elim l.length fun n ↦ min n.toNat l.length := by
  cases limit with
  | none => rfl
  | some n =>
    rw [keep, Option.elim_some, Option.elim_some, List.rtake, List.length_drop]
    omega

theorem length_keep_le (l : List α) {n : UInt64} (h : limit = some n) :
    (keep limit l).length ≤ n.toNat := by
  rw [length_keep, h]
  exact Nat.min_le_left _ _

/-- What was given up does not come back, so it need not be looked at again. -/
theorem keep_keep_append (l l' : List α) :
    keep limit (keep limit l ++ l') = keep limit (l ++ l') := by
  cases limit with
  | none => rfl
  | some n =>
    simp only [keep, Option.elim_some, List.rtake_eq_reverse_take_reverse, List.reverse_append,
      List.reverse_reverse, List.take_append, List.take_take, List.length_reverse]
    rw [Nat.min_eq_left (Nat.sub_le _ _)]

end Keep

/-! ## Histories -/

/-- There are not more steps than the limit allows. -/
def Within (h : History) : Prop := ∀ n, h.limit = some n → h.steps.length ≤ n.toNat

theorem within_empty (limit : Option UInt64) : (empty limit).Within :=
  fun _ _ ↦ Nat.zero_le _

variable {h : History}

theorem Within.keep_steps (hh : h.Within) : keep h.limit h.steps = h.steps := keep_eq_self _ hh

theorem steps_record (hh : h.Within) (step : Step) :
    (h.record step).steps = keep h.limit (h.steps ++ [step]) := by
  rw [record]
  cases hlimit : h.limit with
  | none => rfl
  | some n =>
    have hle := hh n hlimit
    simp only [keep, Option.elim_some, List.rtake, List.length_append, List.length_singleton, size]
    split
    · rename_i hzero
      -- nothing was kept, and nothing will be
      subst hzero
      have hnil : h.steps = [] := List.eq_nil_of_length_eq_zero (Nat.le_zero.1 hle)
      simp [hnil]
    · rename_i hzero
      have hpos : 0 < n.toNat := Nat.pos_of_ne_zero fun heq ↦ hzero (UInt64.toNat_inj.1 heq)
      exact (List.drop_append_of_le_length (by omega)).symm

theorem Within.record (hh : h.Within) (step : Step) : (h.record step).Within := by
  intro n hn
  rw [limit_record] at hn
  rw [steps_record hh]
  exact length_keep_le _ _ hn

/-- **A history keeps the end of what it is given.** -/
theorem steps_recordAll (hh : h.Within) (steps : List Step) :
    (h.recordAll steps).steps = keep h.limit (h.steps ++ steps) := by
  induction steps generalizing h with
  | nil => rw [List.append_nil, hh.keep_steps, recordAll, List.foldl_nil]
  | cons step rest ih =>
    rw [recordAll, List.foldl_cons]
    calc ((h.record step).recordAll rest).steps
        = keep h.limit ((h.record step).steps ++ rest) := by rw [ih (hh.record step), limit_record]
      _ = keep h.limit (keep h.limit (h.steps ++ [step]) ++ rest) := by rw [steps_record hh]
      _ = keep h.limit (h.steps ++ step :: rest) := by
        rw [keep_keep_append, List.append_assoc, List.singleton_append]

theorem recordAll_empty (limit : Option UInt64) (steps : List Step) :
    (empty limit).recordAll steps = ⟨keep limit steps, limit⟩ := by
  have hsteps := steps_recordAll (within_empty limit) steps
  have hlimit := limit_recordAll (empty limit) steps
  generalize (empty limit).recordAll steps = h at hsteps hlimit
  cases h
  simp only [empty, List.nil_append] at hsteps hlimit
  rw [hsteps, hlimit]

theorem recordAll_append (h : History) (steps steps' : List Step) :
    h.recordAll (steps ++ steps') = (h.recordAll steps).recordAll steps' :=
  List.foldl_append

/-- **Cutting on the way makes no difference**: what was cut before would not have been kept. -/
theorem recordAll_keep (limit : Option UInt64) (steps steps' : List Step) :
    (⟨keep limit steps, limit⟩ : History).recordAll steps' =
      ⟨keep limit (steps ++ steps'), limit⟩ := by
  rw [← recordAll_empty, ← recordAll_append, recordAll_empty]

end History

end LabelAutomaton
