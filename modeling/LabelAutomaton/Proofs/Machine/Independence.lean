import LabelAutomaton.Proofs.Builder.Registered
import LabelAutomaton.Proofs.Machine.Fleet
import LabelAutomaton.Proofs.Machine.Lockstep
import Mathlib.Data.List.Forall2

/-!
# Machines over one builder are independent

A machine in a fleet goes where it would go alone: of all orders only its own concern it
(`Fleet.agree_reportsOf`). What machines share is the count of the calls that callbacks have had.
It can make a callback of one machine fail for what another machine did, but never moves a machine.

The failure can even be that of another callback than the one which fails alone
(`Fleet.blame_depends_on_others`).
-/

set_option autoImplicit false

namespace LabelAutomaton

/-- The callback answers all its calls alike. -/
def Callback.IsConstant (c : Callback) : Prop := ∀ n n', c.respond n = c.respond n'

/-- Reports that differ at most in what callbacks said, and not even in that if the callbacks of
the state in which the machine stands are constant. -/
inductive Report.Agree (g : Graph) : Report → Report → Prop
  /-- They do not differ. -/
  | same (r : Report) : Agree g r r
  /-- The machine was called. -/
  | called {c : Call} {o o' : Outcome} (h : o.Agree g g c o')
      (hconstant : (∀ cb ∈ g.callbacks o.machine.current, cb.IsConstant) → o = o') :
      Agree g (.called c o) (.called c o')

theorem Report.Agree.eq {g : Graph} (hconstant : ∀ state, ∀ cb ∈ g.callbacks state, cb.IsConstant)
    {r r' : Report} (h : r.Agree g r') : r = r' := by
  cases h with
  | same => rfl
  | called _ heq => rw [heq (hconstant _)]

/-! ## One order -/

theorem Graph.SameOutline.refl (g : Graph) : g.SameOutline g :=
  ⟨fun _ ↦ rfl, fun _ _ ↦ rfl, fun _ ↦ rfl⟩

/-- Constant callbacks do not care what was called before. -/
theorem Machine.call_eq_of_constant {g : Graph} {past : List Invocation} {now : Instant}
    {m : Machine} {c : Call} (past' : List Invocation)
    (h : ∀ cb ∈ g.callbacks (m.call g past now c).machine.current, cb.IsConstant) :
    m.call g past now c = m.call g past' now c := by
  have hanswers := answers_call g past now m c
  generalize m.call g past now c = o at h hanswers
  cases hanswers with
  | unusable c hstate => exact (Answers.unusable c hstate).call_eq.symm
  | blocked hstate htarget => exact (Answers.blocked hstate htarget).call_eq.symm
  | @moved label target _ hstate htarget hcalls =>
    have hconstant : ∀ cb ∈ g.callbacks target, cb.IsConstant := h
    rw [runCallbacks_of_constant hconstant] at hcalls
    exact (Answers.moved hstate htarget hcalls).call_eq.symm
  | @failed label target _ _ hstate htarget hcalls =>
    have hconstant : ∀ cb ∈ g.callbacks target, cb.IsConstant := h
    rw [runCallbacks_of_constant hconstant] at hcalls
    exact (Answers.failed hstate htarget hcalls).call_eq.symm
  | accepted hstate haccepting => exact (Answers.accepted hstate haccepting).call_eq.symm
  | refused hstate haccepting => exact (Answers.refused hstate haccepting).call_eq.symm

/-- An order does the same to a machine whatever callbacks were called before, and the reports
agree. -/
theorem Order.agree_act (b : Builder) (past past' : List Invocation) (m? : Option Machine)
    (order : Order) :
    (order.act b past m?).1 = (order.act b past' m?).1 ∧
      (order.act b past m?).2.Agree b.graph (order.act b past' m?).2 := by
  cases order with
  | start | resume | park => exact ⟨rfl, .same _⟩
  | call now c =>
    cases m? with
    | none => exact ⟨rfl, .same _⟩
    | some m =>
      have hagree := Machine.agree_call (Graph.SameOutline.refl b.graph) past past' now m c
      exact ⟨congrArg some hagree.machine, .called hagree (Machine.call_eq_of_constant past')⟩

/-! ## All orders -/

namespace Fleet

/-- The orders to the machine of this name. -/
def own (name : String) (orders : List (String × Order)) : List (String × Order) :=
  orders.filter (·.1 == name)

/-- The reports of the orders to the machine of this name. -/
def reportsOf (f : Fleet) (name : String) (orders : List (String × Order)) : List Report :=
  ((orders.zip (f.run orders)).filter (·.1.1 == name)).map (·.2)

/-- The machine of this name by itself, over a copy of the builder whose callbacks were not called
yet. -/
def alone (f : Fleet) (name : String) : Fleet :=
  ⟨f.builder, [], (f.machines.find? name).elim SortedMap.empty (SortedMap.empty.insert name)⟩

theorem find?_alone (f : Fleet) (name : String) :
    (f.alone name).machines.find? name = f.machines.find? name := by
  rw [alone]
  cases f.machines.find? name with
  | none => rfl
  | some m => simp [SortedMap.find?_insert]

theorem reportsOf_cons_self (f : Fleet) (name : String) (order : Order)
    (rest : List (String × Order)) :
    f.reportsOf name ((name, order) :: rest) =
      (f.obey name order).2 :: (f.obey name order).1.reportsOf name rest := by
  simp [reportsOf, run]

theorem reportsOf_cons_of_ne {name other : String} (h : other ≠ name) (f : Fleet) (order : Order)
    (rest : List (String × Order)) :
    f.reportsOf name ((other, order) :: rest) = (f.obey other order).1.reportsOf name rest := by
  simp [reportsOf, run, h]

theorem own_cons_self (name : String) (order : Order) (rest : List (String × Order)) :
    own name ((name, order) :: rest) = (name, order) :: own name rest := by
  simp [own]

theorem own_cons_of_ne {name other : String} (h : other ≠ name) (order : Order)
    (rest : List (String × Order)) : own name ((other, order) :: rest) = own name rest := by
  simp [own, h]

/-- **Two fleets that have a machine in common** treat it alike, if one gets the orders to this
machine only. -/
theorem agree_reportsOf (f f' : Fleet) {name : String} (hbuilder : f.builder = f'.builder)
    (hmachine : f.machines.find? name = f'.machines.find? name) (orders : List (String × Order)) :
    List.Forall₂ (Report.Agree f.builder.graph) (f.reportsOf name orders)
        (f'.run (own name orders)) ∧
      (f.after orders).machines.find? name =
        (f'.after (own name orders)).machines.find? name := by
  induction orders generalizing f f' with
  | nil => exact ⟨.nil, hmachine⟩
  | cons o rest ih =>
    obtain ⟨other, order⟩ := o
    by_cases hname : other = name
    · subst hname
      have hact := Order.agree_act f.builder f.calls f'.calls (f.machines.find? other) order
      have hnext := ih (f.obey other order).1 (f'.obey other order).1 hbuilder (by
        rw [find?_obey_self, find?_obey_self, ← hmachine, ← hbuilder, hact.1])
      rw [reportsOf_cons_self, own_cons_self, run, after_cons, after_cons]
      refine ⟨.cons ?_ hnext.1, hnext.2⟩
      rw [snd_obey, snd_obey, ← hmachine, ← hbuilder]
      exact hact.2
    · -- an order to another machine changes nothing that this one sees
      have hnext := ih (f.obey other order).1 f' hbuilder (by
        rw [find?_obey_of_ne _ _ _ (Ne.symm hname), hmachine])
      rw [reportsOf_cons_of_ne hname, own_cons_of_ne hname, after_cons]
      exact hnext

/-- **Machines are independent.** Whatever orders the other machines of a fleet obey in between,
the reports of the orders to one machine are those that it would give alone, and in the end the
machine is the same. Reports on calls may differ in what callbacks said, if some callback of the
state entered is not constant; if all callbacks are, the reports do not differ at all. -/
theorem machines_are_independent (f : Fleet) (name : String) (orders : List (String × Order)) :
    List.Forall₂ (Report.Agree f.builder.graph) (f.reportsOf name orders)
        ((f.alone name).run (own name orders)) ∧
      (f.after orders).machines.find? name =
        ((f.alone name).after (own name orders)).machines.find? name ∧
      ((∀ state, ∀ cb ∈ f.builder.graph.callbacks state, cb.IsConstant) →
        f.reportsOf name orders = (f.alone name).run (own name orders)) := by
  obtain ⟨hreports, hafter⟩ := agree_reportsOf f (f.alone name) rfl (f.find?_alone name).symm orders
  refine ⟨hreports, hafter, fun hconstant ↦ ?_⟩
  rw [← List.forall₂_eq_eq_eq]
  exact hreports.imp fun _ _ h ↦ h.eq hconstant

/-- A machine that complains does not need the others for it. -/
theorem complaining_alone :
    let f := empty Builder.complaining
    (∀ state, ∀ cb ∈ f.builder.graph.callbacks state, cb.IsConstant) ∧
      f.reportsOf "q" twoEntries = (f.alone "q").run (own "q" twoEntries) := by
  intro f
  have hconstant : ∀ state, ∀ cb ∈ f.builder.graph.callbacks state, cb.IsConstant := by
    intro state cb hcb
    rw [show f.builder.graph.callbacks state = _ from
      Builder.callbacks_declareAll ⟨true, none⟩ _ state] at hcb
    have hmem := Declaration.mem_of_mem_registered hcb
    simp only [List.mem_cons, List.not_mem_nil, or_false, reduceCtorEq, false_or,
      Declaration.onEntry.injEq] at hmem
    obtain ⟨-, rfl⟩ := hmem
    exact fun _ _ ↦ rfl
  exact ⟨hconstant, (machines_are_independent f "q" twoEntries).2.2 hconstant⟩

/-! ## Whose failure it is -/

/-- The results are the same, unless success and a failed callback have changed places. -/
def SameOrSwapped (r r' : Option (Except MachineError Unit)) : Prop :=
  r = r' ∨ (r = some (.ok ()) ∧ ∃ state failure, r' = some (.error (.callback state failure))) ∨
    r' = some (.ok ()) ∧ ∃ state failure, r = some (.error (.callback state failure))

/-- **The blame depends on others.** The first machine to enter the state hears from the first
callback, and the second from the second, which would have heard from the first if it were
alone. -/
theorem blame_depends_on_others :
    let f := empty ((Builder.empty .standard).declareAll touchy)
    ¬List.Forall₂ SameOrSwapped ((f.reportsOf "q" twoEntries).map (·.result?))
      (((f.alone "q").run (own "q" twoEntries)).map (·.result?)) := by
  intro f h
  have htogether : (f.reportsOf "q" twoEntries).map (·.result?) =
      [none, some (.error (.callback "b" ⟨"second", []⟩))] := rfl
  have halone : ((f.alone "q").run (own "q" twoEntries)).map (·.result?) =
      [none, some (.error (.callback "b" ⟨"first", []⟩))] := rfl
  rw [htogether, halone] at h
  rcases h with _ | ⟨-, _ | ⟨hblame, -⟩⟩
  simp [SameOrSwapped] at hblame

end Fleet

end LabelAutomaton
