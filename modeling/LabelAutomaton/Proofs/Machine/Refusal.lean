import LabelAutomaton.Proofs.Builder.Taken
import LabelAutomaton.Proofs.Machine.Fleet
import LabelAutomaton.Proofs.Machine.Lockstep

/-!
# Refusals leave no trace

An order is refused when no machine can be started or resumed, when a label leads nowhere, when a
run cannot end where it stands, or when it has ended before. The fleet is then as it was
(`Fleet.obey_eq_of_isRefusal`), so an order that will be refused might as well not be given:
`Fleet.heeded` leaves such orders out, and what becomes of the others is the same.

To fail is not always to be refused. When a callback fails, the machine has moved, just as if the
callback had succeeded. `Fleet.refusals_leave_no_trace` has both sides.
-/

set_option autoImplicit false

namespace LabelAutomaton

/-! ## One order -/

/-- The call was refused, and has not failed for a callback. -/
def MachineError.isRefusal : MachineError → Bool
  | invalidTransition .. | unacceptableFinish _ | unusable => true
  | callback .. => false

/-- The call was refused. -/
def Outcome.isRefusal (o : Outcome) : Bool :=
  match o.result with
  | .ok () => false
  | .error e => e.isRefusal

/-- The order was refused. -/
def Report.isRefusal : Report → Bool
  | unstarted _ | unresumed _ => true
  | called _ o => o.isRefusal
  | absent | launched .. | parked _ => false

namespace Machine

variable {g : Graph} {past : List Invocation} {now : Instant} {m : Machine} {c : Call}

/-- A call that is refused does nothing to the machine, and no callback hears of it. -/
theorem call_of_isRefusal (h : (m.call g past now c).isRefusal = true) :
    (m.call g past now c).machine = m ∧ (m.call g past now c).invocations = [] := by
  have hanswers := answers_call g past now m c
  generalize m.call g past now c = o at h hanswers
  cases hanswers with
  | unusable | blocked | refused => exact ⟨rfl, rfl⟩
  | moved | failed | accepted => cases h

/-- When a callback fails, the machine has moved. -/
theorem call_of_callback {state : StateName} {failure : Failure}
    (h : (m.call g past now c).result = .error (.callback state failure)) :
    ∃ label, c = .transition label ∧ g.target? m.current label = some state ∧
      (m.call g past now c).machine = m.move now label state := by
  have hanswers := answers_call g past now m c
  generalize m.call g past now c = o at h hanswers
  cases hanswers with
  | @failed label target _ _ _ htarget =>
    obtain ⟨rfl, -⟩ := MachineError.callback.inj (Except.error.inj h)
    exact ⟨label, rfl, htarget, rfl⟩
  | unusable | blocked | moved | accepted | refused => cases h

end Machine

/-- An order that is refused changes nothing where it goes to. -/
theorem Order.act_of_isRefusal {b : Builder} {past : List Invocation} {m? : Option Machine}
    {order : Order} (h : (order.act b past m?).2.isRefusal = true) :
    (order.act b past m?).1 = m? ∧ (order.act b past m?).2.invocations = [] := by
  cases order with
  | start | resume =>
    revert h
    rw [act]
    split
    · intro h
      cases h
    · exact fun _ ↦ ⟨rfl, rfl⟩
  | call now c =>
    rcases m? with _ | m
    · cases h
    · have hcall : (m.call b.graph past now c).isRefusal = true := h
      obtain ⟨hmachine, hsilent⟩ := Machine.call_of_isRefusal hcall
      exact ⟨congrArg some hmachine, hsilent⟩
  | park => rcases m? with _ | m <;> cases h

namespace Fleet

/-- **An order that is refused changes nothing.** -/
theorem obey_eq_of_isRefusal {f : Fleet} {name : String} {order : Order}
    (h : (f.obey name order).2.isRefusal = true) : (f.obey name order).1 = f := by
  obtain ⟨hmachine, hsilent⟩ := Order.act_of_isRefusal h
  rw [obey]
  simp only [hmachine, hsilent, List.append_nil]
  cases hfind : f.machines.find? name with
  | none => rfl
  | some m => rw [Option.elim_some, SortedMap.insert_eq_self hfind]

/-! ## All orders -/

/-- The orders that are not refused when all are given one after the other. -/
def heeded (f : Fleet) (orders : List (String × Order)) : List (String × Order) :=
  ((orders.zip (f.run orders)).filter (!·.2.isRefusal)).map (·.1)

theorem heeded_cons (f : Fleet) (name : String) (order : Order) (rest : List (String × Order)) :
    f.heeded ((name, order) :: rest) =
      if (f.obey name order).2.isRefusal then (f.obey name order).1.heeded rest
      else (name, order) :: (f.obey name order).1.heeded rest := by
  rw [heeded, run, List.zip_cons_cons]
  split
  · rename_i hrefusal
    rw [List.filter_cons_of_neg (by simp [hrefusal]), heeded]
  · rename_i hrefusal
    rw [List.filter_cons_of_pos (by simp [hrefusal]), List.map_cons, heeded]

/-- **The orders that are not refused could as well be all that are given.** -/
theorem run_heeded (f : Fleet) (orders : List (String × Order)) :
    f.run (f.heeded orders) = (f.run orders).filter (!·.isRefusal) ∧
      f.after (f.heeded orders) = f.after orders := by
  induction orders generalizing f with
  | nil => exact ⟨rfl, rfl⟩
  | cons o rest ih =>
    obtain ⟨name, order⟩ := o
    obtain ⟨hrun, hafter⟩ := ih (f.obey name order).1
    rw [heeded_cons, run, after_cons]
    by_cases hrefusal : (f.obey name order).2.isRefusal = true
    -- the order is left out, and the rest goes to the fleet that it would have gone to after it
    · rw [if_pos hrefusal, List.filter_cons_of_neg (by simp [hrefusal])]
      rw [obey_eq_of_isRefusal hrefusal] at hrun hafter ⊢
      exact ⟨hrun, hafter⟩
    · rw [if_neg hrefusal, List.filter_cons_of_pos (by simp [hrefusal]), run, after_cons, hrun,
        hafter]
      exact ⟨rfl, rfl⟩

/-- **Refusals leave no trace.** If the declarations that fail are left out, and of the orders those
that are refused, then the results of the others are the same, and so are the calls of callbacks,
the graph and the machines in the end. A call that fails for a callback is no refusal: it has moved
the machine and recorded the move, as it does whatever callbacks there are. -/
theorem refusals_leave_no_trace (b : Builder) (ds : List Declaration) (past : List Invocation)
    (machines : SortedMap Machine) (orders : List (String × Order)) :
    let f : Fleet := ⟨b.declareAll ds, past, machines⟩
    let f' : Fleet := ⟨b.declareAll (b.taken ds), past, machines⟩
    let g := f.builder.graph
    b.results (b.taken ds) = (b.results ds).filter (·.isOk) ∧
      f'.run (f.heeded orders) = (f.run orders).filter (!·.isRefusal) ∧
      (f'.run (f.heeded orders)).flatMap (·.invocations) =
        (f.run orders).flatMap (·.invocations) ∧
      f'.after (f.heeded orders) = f.after orders ∧
      ∀ (past : List Invocation) (now : Instant) (m : Machine) (c : Call) (state : StateName)
        (failure : Failure), (m.call g past now c).result = .error (.callback state failure) →
          ∃ label, c = .transition label ∧ g.target? m.current label = some state ∧
            (m.call g past now c).machine = { m with
              current := state
              history :=
                if m.recording then m.history.record ⟨m.current, label, state, now⟩
                else m.history } ∧
            ∀ g' past', g.SameOutline g' →
              (m.call g' past' now c).machine = (m.call g past now c).machine := by
  intro f f' g
  obtain ⟨hbuilder, hresults, -⟩ := b.declare_taken ds
  have hfleet : f' = f := congrArg (Fleet.mk · past machines) hbuilder
  rw [hfleet]
  obtain ⟨hrun, hafter⟩ := f.run_heeded orders
  have hcalls := congrArg calls hafter
  rw [calls_after, calls_after] at hcalls
  refine ⟨hresults, hrun, List.append_cancel_left hcalls, hafter, ?_⟩
  intro past now m c state failure hfailed
  obtain ⟨label, hc, htarget, hmachine⟩ := Machine.call_of_callback hfailed
  refine ⟨label, hc, htarget, hmachine, fun g' past' hg ↦ ?_⟩
  exact (Machine.agree_call hg past past' now m c).machine.symm

/-- A machine that is started nowhere, and then somewhere; that cannot finish there, knows no way
out by that label, and stumbles on another. -/
def stumbling : List (String × Order) :=
  [("p", .start "nowhere"), ("p", .start "a"), ("p", .call default .finish),
    ("p", .call default (.transition "y")), ("p", .call default (.transition "x"))]

theorem stumbling_heeded :
    let f := empty ((Builder.empty .standard).declareAll (.accept "b" :: touchy))
    let m := Machine.start .standard "a"
    f.heeded stumbling = [("p", .start "a"), ("p", .call default (.transition "x"))] ∧
      f.after [("p", .start "a"), ("p", .call default (.transition "x"))] = f.after stumbling ∧
      (m.call f.builder.graph [] default (.transition "x")).result =
        .error (.callback "b" ⟨"first", []⟩) ∧
      (m.call f.builder.graph [] default (.transition "x")).machine =
        { m with current := "b" } := by
  intro f m
  have hheeded : f.heeded stumbling = [("p", .start "a"), ("p", .call default (.transition "x"))] :=
    rfl
  have hfailed : (m.call f.builder.graph [] default (.transition "x")).result =
      .error (.callback "b" ⟨"first", []⟩) := rfl
  obtain ⟨-, -, -, hafter, hcallback⟩ := refusals_leave_no_trace (.empty .standard)
    (.accept "b" :: touchy) [] SortedMap.empty stumbling
  obtain ⟨label, -, -, hmachine, -⟩ := hcallback [] default m (.transition "x") "b" _ hfailed
  refine ⟨hheeded, ?_, hfailed, hmachine⟩
  rw [← hheeded]
  exact hafter

end Fleet

end LabelAutomaton
