import LabelAutomaton.Proofs.Builder.Registered
import LabelAutomaton.Proofs.Callback.Entry
import LabelAutomaton.Proofs.Machine.Fleet

/-!
# The trace of callbacks

Callbacks run when a machine enters a state, and at no other time. `Fleet.entries` lists the
entries in the order in which they happen, whichever machines they belong to; the calls that
callbacks have had are those of the entries, one entry after the other
(`Fleet.callbacks_follow_entries`).
-/

set_option autoImplicit false

namespace LabelAutomaton

/-! ## One call -/

namespace Entry

/-- The result of the call that leads to the entry. -/
def result (g : Graph) (e : Entry) : Except MachineError Unit :=
  (e.failure? g).elim (.ok ()) fun failure ↦ .error (.callback e.state failure)

theorem result_eq_callback_iff {g : Graph} {e : Entry} {state : StateName} {failure : Failure} :
    e.result g = .error (.callback state failure) ↔
      e.state = state ∧ e.failure? g = some failure := by
  rw [result]
  cases e.failure? g <;> simp

end Entry

namespace Machine

/-- A call leads to an entry, which has its say, or callbacks have nothing to do with it. -/
theorem entry_or_silence (g : Graph) (past : List Invocation) (now : Instant) (m : Machine)
    (c : Call) :
    let o := m.call g past now c
    (∃ state, c.entered? o = some state ∧ o.invocations = Entry.invocations g ⟨state, past⟩ ∧
      o.result = Entry.result g ⟨state, past⟩) ∨
      c.entered? o = none ∧ o.invocations = [] ∧
        ∀ state failure, o.result ≠ .error (.callback state failure) := by
  have h := answers_call g past now m c
  generalize m.call g past now c = o at h
  cases h with
  | unusable => cases c <;> simp [Call.entered?, Outcome.Followed]
  | blocked => simp [Call.entered?, Outcome.Followed]
  | accepted | refused => simp [Call.entered?]
  | @moved label target _ _ _ hcalls | @failed label target _ _ _ _ hcalls =>
    have hentry := hcalls.symm.trans (Entry.runCallbacks_eq g ⟨target, past⟩)
    obtain ⟨rfl, hfailure⟩ := Prod.mk.inj hentry
    refine Or.inl ⟨target, by simp [Call.entered?, Outcome.Followed, move], rfl, ?_⟩
    rw [Entry.result, ← hfailure]
    rfl

/-- A call leads to a state just if it is a label that leads there. -/
theorem entered?_call_eq_some_iff (g : Graph) (past : List Invocation) (now : Instant)
    (m : Machine) (c : Call) (state : StateName) :
    c.entered? (m.call g past now c) = some state ↔
      m.runState = .active ∧ ∃ label, c = .transition label ∧
        g.target? m.current label = some state := by
  have h := answers_call g past now m c
  generalize m.call g past now c = o at h
  cases h with
  | unusable c hstate => cases c <;> simp [Call.entered?, Outcome.Followed, hstate]
  | blocked hstate htarget => simp [Call.entered?, Outcome.Followed, htarget]
  | accepted | refused => simp [Call.entered?]
  | moved hstate htarget hcalls | failed hstate htarget hcalls =>
    simp [Call.entered?, Outcome.Followed, move, hstate, htarget]

section Transition

variable {g : Graph} {past : List Invocation} {now : Instant} {m : Machine} {label : Label}

theorem entered?_transition {target : StateName} (hactive : m.runState = .active)
    (htarget : g.target? m.current label = some target) :
    (Call.transition label).entered? (m.call g past now (.transition label)) = some target :=
  (m.entered?_call_eq_some_iff g past now _ target).2 ⟨hactive, label, rfl, htarget⟩

/-- A label that is followed leads somewhere. -/
theorem exists_of_followed (h : (m.call g past now (.transition label)).Followed) :
    ∃ target, m.runState = .active ∧ g.target? m.current label = some target := by
  have hentered : (Call.transition label).entered? (m.call g past now (.transition label)) =
      some (m.call g past now (.transition label)).machine.current := if_pos h
  obtain ⟨hactive, _, hlabel, htarget⟩ := (m.entered?_call_eq_some_iff g past now _ _).1 hentered
  obtain rfl := Call.transition.inj hlabel
  exact ⟨_, hactive, htarget⟩

end Transition

end Machine

/-! ## One order -/

namespace Fleet

variable (f : Fleet)

/-- The entry that an order leads to, if it does. -/
def entryOf? (name : String) (order : Order) : Option Entry :=
  (f.obey name order).2.entered?.map (⟨·, f.calls⟩)

/-- What callbacks have to do with an order. -/
structure Heard (name : String) (order : Order) : Prop where
  /-- An entry is a move: the order is a label that the machine, which goes on, can follow. -/
  entryOf?_eq_some_iff (e : Entry) :
    f.entryOf? name order = some e ↔
      e.past = f.calls ∧ ∃ m now label, f.machines.find? name = some m ∧ m.runState = .active ∧
        order = .call now (.transition label) ∧
          f.builder.graph.target? m.current label = some e.state
  /-- The machine is then in the state that was entered. -/
  current (e : Entry) (h : f.entryOf? name order = some e) :
    ((f.obey name order).1.machines.find? name).map (·.current) = some e.state
  /-- What runs is what the entry runs, and nothing if there is none. -/
  invocations :
    (f.obey name order).2.invocations =
      (f.entryOf? name order).elim [] (Entry.invocations f.builder.graph)
  /-- The result blames a callback just if there is an entry with one that fails; it names the
  state entered, and has the failure of the first that fails. -/
  result?_eq_callback_iff (state : StateName) (failure : Failure) :
    (f.obey name order).2.result? = some (.error (.callback state failure)) ↔
      ∃ e, f.entryOf? name order = some e ∧ e.state = state ∧
        e.failure? f.builder.graph = some failure

theorem heard_call {name : String} {m : Machine} (hm : f.machines.find? name = some m)
    (now : Instant) (c : Call) : f.Heard name (.call now c) := by
  have hreport : (f.obey name (.call now c)).2 =
      .called c (m.call f.builder.graph f.calls now c) := by rw [snd_obey, hm, Order.act]
  have hafter : (f.obey name (.call now c)).1.machines.find? name =
      some (m.call f.builder.graph f.calls now c).machine := by
    rw [find?_obey_self, hm, Order.act]
  have hentry : f.entryOf? name (.call now c) =
      (c.entered? (m.call f.builder.graph f.calls now c)).map (⟨·, f.calls⟩) := by
    rw [entryOf?, hreport, Report.entered?]
  have hentered := m.entered?_call_eq_some_iff f.builder.graph f.calls now c
  have hsay := m.entry_or_silence f.builder.graph f.calls now c
  generalize m.call f.builder.graph f.calls now c = o at *
  refine ⟨fun e ↦ ?_, fun e he ↦ ?_, ?_, fun state failure ↦ ?_⟩
  · rw [hentry, Option.map_eq_some_iff]
    constructor
    · rintro ⟨state, hstate, rfl⟩
      obtain ⟨hactive, label, rfl, htarget⟩ := (hentered state).1 hstate
      exact ⟨rfl, m, now, label, hm, hactive, rfl, htarget⟩
    · rintro ⟨hpast, m', now', label, hm', hactive, horder, htarget⟩
      obtain rfl := Option.some.inj (hm.symm.trans hm')
      obtain ⟨-, rfl⟩ := Order.call.inj horder
      exact ⟨e.state, (hentered e.state).2 ⟨hactive, label, rfl, htarget⟩, by rw [← hpast]⟩
  · rw [hentry, Option.map_eq_some_iff] at he
    obtain ⟨state, hstate, rfl⟩ := he
    rw [hafter, Option.map_some, Call.current_of_entered? hstate]
  · rw [hreport, hentry]
    rcases hsay with ⟨state, hstate, hcalls, -⟩ | ⟨hnone, hcalls, -⟩
    · rw [hstate]
      exact hcalls
    · rw [hnone]
      exact hcalls
  · rw [hreport, hentry, Report.result?, Option.some_inj]
    rcases hsay with ⟨entered, hstate, -, hresult⟩ | ⟨hnone, -, hresult⟩
    · rw [hstate, hresult, Entry.result_eq_callback_iff]
      simp
    · rw [hnone]
      simpa using hresult state failure

theorem heard (name : String) (order : Order) : f.Heard name order := by
  rcases f.called_or_silent name order with
    ⟨m, now, c, hm, rfl⟩ | ⟨hnot, hentered, hsilent, hresult⟩
  · exact f.heard_call hm now c
  · have hentry : f.entryOf? name order = none := by rw [entryOf?, hentered, Option.map_none]
    refine ⟨fun e ↦ ?_, fun e he ↦ ?_, ?_, fun state failure ↦ ?_⟩
    · rw [hentry]
      refine ⟨nofun, ?_⟩
      rintro ⟨-, m, now, label, hm, -, horder, -⟩
      exact absurd horder (hnot m now _ hm)
    · rw [hentry] at he
      cases he
    · rw [hentry, hsilent]
      rfl
    · simp [hentry, hresult]

/-! ## All orders -/

/-- The entries that orders lead to, in the order in which they happen. -/
def entries : Fleet → List (String × Order) → List Entry
  | _, [] => []
  | f, (name, order) :: rest =>
    (f.entryOf? name order).toList ++ (f.obey name order).1.entries rest

theorem invocations_run (orders : List (String × Order)) :
    (f.run orders).flatMap (·.invocations) =
      (f.entries orders).flatMap (Entry.invocations f.builder.graph) := by
  induction orders generalizing f with
  | nil => rfl
  | cons o rest ih =>
    obtain ⟨name, order⟩ := o
    rw [run, entries, List.flatMap_cons, List.flatMap_append, ih, (f.heard name order).invocations,
      builder_obey]
    cases f.entryOf? name order <;> simp

theorem callCount_flatMap {state : StateName} {index : Nat}
    (h : index < (f.builder.graph.callbacks state).length) (es : List Entry) :
    callCount (es.flatMap (Entry.invocations f.builder.graph)) state index =
      es.countP fun e ↦ e.state = state ∧ e.Reaches f.builder.graph index := by
  induction es with
  | nil => rfl
  | cons e rest ih =>
    rw [List.flatMap_cons, callCount_append, ih, Entry.callCount_invocations _ e h,
      List.countP_cons, Nat.add_comm]
    simp only [decide_eq_true_eq]

/-- **Callbacks follow the entries.** Whatever machines there are and whatever order they are given
orders in, the calls that callbacks get are those of the entries, one entry after the other; for
each entry they are the callbacks registered on the state, in that order and up to the first that
fails. So each callback counts the entries, by any machine, at which all before it succeeded. What
is to be said of single orders is `Fleet.Heard`. -/
theorem callbacks_follow_entries (config : Config) (ds : List Declaration)
    (past : List Invocation) (machines : SortedMap Machine) (orders : List (String × Order)) :
    let f : Fleet := ⟨(Builder.empty config).declareAll ds, past, machines⟩
    let g := f.builder.graph
    (∀ state, g.callbacks state = Declaration.registered ds state) ∧
      (f.run orders).flatMap (·.invocations) = (f.entries orders).flatMap (Entry.invocations g) ∧
      (f.after orders).calls = past ++ (f.entries orders).flatMap (Entry.invocations g) ∧
      (∀ state index, index < (Declaration.registered ds state).length →
        callCount (f.after orders).calls state index =
          callCount past state index +
            (f.entries orders).countP fun e ↦ e.state = state ∧ e.Reaches g index) ∧
      ∀ before name order, (f.after before).Heard name order := by
  intro f g
  have hregistered := Builder.callbacks_declareAll config ds
  have hrun := f.invocations_run orders
  have hcalls :
      (f.after orders).calls = past ++ (f.entries orders).flatMap (Entry.invocations g) := by
    rw [calls_after, hrun]
  refine ⟨hregistered, hrun, hcalls, fun state index hindex ↦ ?_,
    fun before ↦ (f.after before).heard⟩
  rw [← hregistered] at hindex
  rw [hcalls, callCount_append, f.callCount_flatMap hindex]

theorem callCount_touchy :
    let f := empty ((Builder.empty .standard).declareAll touchy)
    1 < (Declaration.registered touchy "b").length ∧
      callCount (f.after twoEntries).calls "b" 0 = 2 ∧
      callCount (f.after twoEntries).calls "b" 1 = 1 := by
  intro f
  have hlength : (Declaration.registered touchy "b").length = 2 := rfl
  obtain ⟨-, -, -, hcount, -⟩ :=
    callbacks_follow_entries .standard touchy [] SortedMap.empty twoEntries
  have hfirst := hcount "b" 0 (by rw [hlength]; decide)
  have hsecond := hcount "b" 1 (by rw [hlength]; decide)
  exact ⟨by rw [hlength]; decide, hfirst.trans (by decide), hsecond.trans (by decide)⟩

end Fleet

end LabelAutomaton
