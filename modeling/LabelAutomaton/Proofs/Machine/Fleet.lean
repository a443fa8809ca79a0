import LabelAutomaton.Checkpoint
import LabelAutomaton.Proofs.Machine.Reference

/-!
# Machines side by side

A `Fleet` is any number of machines over one builder, by name. An `Order` goes to one of them, and
`Fleet.run` obeys orders in whatever sequence they come.

`Order.act` shows how little an order gets to see: the builder, the calls that callbacks have had
from all machines, and the machine it goes to. Of these the calls alone are common to the fleet.
-/

set_option autoImplicit false

namespace LabelAutomaton

/-! ## Orders -/

/-- Something to be done with a machine. -/
inductive Order where
  /-- Put a machine at the state, in place of the one that was there. -/
  | start (state : StateName)
  /-- Take up a parked run, in place of the one that was there. -/
  | resume (c : Checkpoint)
  /-- Call the machine. -/
  | call (now : Instant) (c : Call)
  /-- Take a checkpoint. -/
  | park (id : String) (now : Instant)

/-- What comes of an order. -/
inductive Report where
  /-- There is no machine to obey it. -/
  | absent
  /-- No machine could be started. -/
  | unstarted (e : BuildError)
  /-- The run could not be taken up. -/
  | unresumed (e : CheckpointError)
  /-- The machine is there now. -/
  | launched (m : Machine) (e : Event)
  /-- The machine was called. -/
  | called (c : Call) (o : Outcome)
  /-- The checkpoint was taken. -/
  | parked (c : Checkpoint)

namespace Report

/-- The callback invocations that the order brought about. -/
def invocations : Report → List Invocation
  | called _ o => o.invocations
  | absent | unstarted _ | unresumed _ | launched .. | parked _ => []

/-- The result of the call, if the order was one. -/
def result? : Report → Option (Except MachineError Unit)
  | called _ o => some o.result
  | absent | unstarted _ | unresumed _ | launched .. | parked _ => none

/-- The state that was entered, if the machine has followed a label. -/
def entered? : Report → Option StateName
  | called c o => c.entered? o
  | absent | unstarted _ | unresumed _ | launched .. | parked _ => none

end Report

/-- What an order does where it goes to: the machine there afterwards, and the report. -/
def Order.act (b : Builder) (past : List Invocation) (m? : Option Machine) :
    Order → Option Machine × Report
  | start state =>
    match b.start state with
    | .ok (m, e) => (some m, .launched m e)
    | .error e => (m?, .unstarted e)
  | resume c =>
    match b.resume c with
    | .ok (m, e) => (some m, .launched m e)
    | .error e => (m?, .unresumed e)
  | call now c =>
    match m? with
    | some m => (some (m.call b.graph past now c).machine, .called c (m.call b.graph past now c))
    | none => (none, .absent)
  | park id now =>
    match m? with
    | some m => (some m, .parked (m.checkpoint id now))
    | none => (none, .absent)

/-- No order takes a machine away. -/
theorem Order.eq_none_of_act {b : Builder} {past : List Invocation} {m? : Option Machine}
    {order : Order} (h : (order.act b past m?).1 = none) : m? = none := by
  cases m? with
  | none => rfl
  | some m =>
    cases order with
    | start | resume =>
      rw [act] at h
      split at h <;> cases h
    | call | park => cases h

/-! ## Fleets -/

/-- The machines over a builder, by name. -/
structure Fleet where
  /-- The builder. -/
  builder : Builder
  /-- The calls that callbacks have had, from all machines. -/
  calls : List Invocation
  /-- The machines. -/
  machines : SortedMap Machine

namespace Fleet

/-- No machine yet, and no callback called. -/
def empty (b : Builder) : Fleet := ⟨b, [], SortedMap.empty⟩

/-- Obey an order to the machine of this name. -/
def obey (f : Fleet) (name : String) (order : Order) : Fleet × Report :=
  let (m?, report) := order.act f.builder f.calls (f.machines.find? name)
  (⟨f.builder, f.calls ++ report.invocations, m?.elim f.machines (f.machines.insert name)⟩, report)

/-- The reports of orders obeyed one after the other. -/
def run : Fleet → List (String × Order) → List Report
  | _, [] => []
  | f, (name, order) :: rest => (f.obey name order).2 :: (f.obey name order).1.run rest

/-- The fleet when orders were obeyed one after the other. -/
def after (f : Fleet) (orders : List (String × Order)) : Fleet :=
  orders.foldl (fun f (name, order) ↦ (f.obey name order).1) f

section Obey

variable (f : Fleet) (name : String) (order : Order)

theorem snd_obey :
    (f.obey name order).2 = (order.act f.builder f.calls (f.machines.find? name)).2 := rfl

@[simp] theorem builder_obey : (f.obey name order).1.builder = f.builder := rfl

@[simp] theorem calls_obey :
    (f.obey name order).1.calls = f.calls ++ (f.obey name order).2.invocations := rfl

/-- The machine that the order goes to is as the order leaves it. -/
theorem find?_obey_self :
    (f.obey name order).1.machines.find? name =
      (order.act f.builder f.calls (f.machines.find? name)).1 := by
  rw [obey]
  cases hact : (order.act f.builder f.calls (f.machines.find? name)).1 with
  | none => simpa [hact] using Order.eq_none_of_act hact
  | some m => simp [hact, SortedMap.find?_insert]

/-- The other machines stay as they are. -/
theorem find?_obey_of_ne {other : String} (h : other ≠ name) :
    (f.obey name order).1.machines.find? other = f.machines.find? other := by
  rw [obey]
  cases hact : (order.act f.builder f.calls (f.machines.find? name)).1 with
  | none => simp [hact]
  | some m => simp [hact, SortedMap.find?_insert, h]

/-- The calls of machines apart, orders are nothing to callbacks. -/
theorem called_or_silent :
    (∃ m now c, f.machines.find? name = some m ∧ order = .call now c) ∨
      (∀ m now c, f.machines.find? name = some m → order ≠ .call now c) ∧
        (f.obey name order).2.entered? = none ∧ (f.obey name order).2.invocations = [] ∧
          (f.obey name order).2.result? = none := by
  rw [snd_obey]
  cases order with
  | start | resume =>
    refine Or.inr ⟨fun _ _ _ _ ↦ nofun, ?_⟩
    rw [Order.act]
    split <;> exact ⟨rfl, rfl, rfl⟩
  | park id now =>
    refine Or.inr ⟨fun _ _ _ _ ↦ nofun, ?_⟩
    cases f.machines.find? name <;> exact ⟨rfl, rfl, rfl⟩
  | call now c =>
    cases f.machines.find? name with
    | none => exact Or.inr ⟨fun _ _ _ ↦ nofun, rfl, rfl, rfl⟩
    | some m => exact Or.inl ⟨m, now, c, rfl, rfl⟩

end Obey

@[simp] theorem after_nil (f : Fleet) : f.after [] = f := rfl

@[simp] theorem after_cons (f : Fleet) (name : String) (order : Order)
    (rest : List (String × Order)) :
    f.after ((name, order) :: rest) = (f.obey name order).1.after rest := rfl

@[simp] theorem builder_after (f : Fleet) (orders : List (String × Order)) :
    (f.after orders).builder = f.builder := by
  induction orders generalizing f with
  | nil => rfl
  | cons o rest ih => exact ih _

/-- **The calls that callbacks had are those reported**, and no others. -/
theorem calls_after (f : Fleet) (orders : List (String × Order)) :
    (f.after orders).calls = f.calls ++ (f.run orders).flatMap (·.invocations) := by
  induction orders generalizing f with
  | nil => rw [run, List.flatMap_nil, List.append_nil, after_nil]
  | cons o rest ih => rw [after_cons, ih, calls_obey, run, List.flatMap_cons, List.append_assoc]

/-! ## Two callbacks that fail in turn -/

/-- Two callbacks on one state, each of which fails when it is first called. -/
def touchy : List Declaration :=
  [.path "a" "x" "b", .onEntry "b" (.failingOn "f" ⟨"first", []⟩ [1]),
    .onEntry "b" (.failingOn "g" ⟨"second", []⟩ [1])]

/-- Two machines enter the state one after the other. -/
def twoEntries : List (String × Order) :=
  [("p", .start "a"), ("q", .start "a"), ("p", .call default (.transition "x")),
    ("q", .call default (.transition "x"))]

end Fleet

end LabelAutomaton
