import LabelAutomaton.Proofs.Builder.Declared
import LabelAutomaton.Proofs.Machine.Call

/-!
# Machines run the declared automaton

`Automaton.Step` is one call on an automaton: what is answered, and where the run stands then.
`Automaton.Follows` holds when the outcomes of a run keep to it from call to call. It leaves open
one thing only: after a move the callbacks may have failed, which is nothing that an automaton
knows of.

A machine over a graph that an automaton describes follows the automaton
(`Automaton.follows_runAt`), and this carries over to words: the labels that are followed are those
that the automaton can read, and finishing succeeds after the words that it accepts. For the graph
of a builder the automaton is the declared one (`Builder.machine_implements_automaton`).
-/

set_option autoImplicit false

namespace LabelAutomaton

/-- Where a run stands. -/
structure Position where
  /-- The present state. -/
  state : StateName
  /-- Whether the run goes on. -/
  runState : RunState

/-- Where the machine stands. -/
def Machine.position (m : Machine) : Position := ⟨m.current, m.runState⟩

theorem Machine.position_move {m : Machine} (h : m.runState = .active) (now : Instant)
    (label : Label) (target : StateName) :
    (m.move now label target).position = ⟨target, .active⟩ := by
  rw [position, move]
  simp only [h]

/-- The machine has moved along a label, whatever its callbacks did. -/
def Outcome.Followed (o : Outcome) : Prop :=
  o.result = .ok () ∨ ∃ state failure, o.result = .error (.callback state failure)

instance (o : Outcome) : Decidable o.Followed :=
  match h : o.result with
  | .ok () => isTrue (Or.inl h)
  | .error (.callback state failure) => isTrue (Or.inr ⟨state, failure, h⟩)
  | .error (.invalidTransition ..) | .error (.unacceptableFinish ..) | .error .unusable =>
    isFalse (by
      rintro (h' | ⟨_, _, h'⟩)
      all_goals
        rw [h] at h'
        cases h')

/-- The state that the call has led to, if it was a label and was followed. -/
def Call.entered? (c : Call) (o : Outcome) : Option StateName :=
  match c with
  | .transition _ => if o.Followed then some o.machine.current else none
  | .finish => none

theorem Call.current_of_entered? {c : Call} {o : Outcome} {state : StateName}
    (h : c.entered? o = some state) : o.machine.current = state := by
  cases c with
  | transition label =>
    rw [entered?] at h
    split at h
    · exact Option.some.inj h
    · cases h
  | finish => cases h

namespace Automaton

/-! ## Runs of an automaton -/

/-- What may be answered to a call at a position, and the position afterwards. -/
inductive Step (A : Automaton) : Position → Call → Except MachineError Unit → Position → Prop
  /-- The label is followed. -/
  | moved {source target : StateName} {label : Label} (h : A.target? source label = some target) :
      A.Step ⟨source, .active⟩ (.transition label) (.ok ()) ⟨target, .active⟩
  /-- The label is followed, and a callback fails. -/
  | failed {source target : StateName} {label : Label} (failure : Failure)
      (h : A.target? source label = some target) :
      A.Step ⟨source, .active⟩ (.transition label) (.error (.callback target failure))
        ⟨target, .active⟩
  /-- The label leads nowhere. -/
  | blocked {source : StateName} {label : Label} (h : A.target? source label = none) :
      A.Step ⟨source, .active⟩ (.transition label) (.error (.invalidTransition source label))
        ⟨source, .active⟩
  /-- The run ends. -/
  | accepted {state : StateName} (h : A.Accepting state) :
      A.Step ⟨state, .active⟩ .finish (.ok ()) ⟨state, .finished⟩
  /-- The run cannot end here. -/
  | refused {state : StateName} (h : ¬A.Accepting state) :
      A.Step ⟨state, .active⟩ .finish (.error (.unacceptableFinish state)) ⟨state, .active⟩
  /-- The run has ended before. -/
  | unusable (state : StateName) (c : Call) :
      A.Step ⟨state, .finished⟩ c (.error .unusable) ⟨state, .finished⟩

/-- The outcomes of calls are, one by one, steps of the automaton from the position. -/
inductive Follows (A : Automaton) : Position → List Call → List Outcome → Prop
  /-- There are no calls. -/
  | nil (p : Position) : A.Follows p [] []
  /-- The first call makes a step, and the others follow from there. -/
  | cons {p : Position} {c : Call} {o : Outcome} {cs : List Call} {os : List Outcome}
      (hstep : A.Step p c o.result o.machine.position)
      (hrest : A.Follows o.machine.position cs os) : A.Follows p (c :: cs) (o :: os)

/-- Where the word leads from the state. -/
def walk? (A : Automaton) (state : StateName) (word : List Label) : Option StateName :=
  word.foldlM A.target? state

/-- The word leads to an accepting state. -/
def Accepts (A : Automaton) (state : StateName) (word : List Label) : Prop :=
  ∃ target, A.walk? state word = some target ∧ A.Accepting target

variable {A : Automaton}

theorem Step.finish_iff {state : StateName} {result : Except MachineError Unit} {p : Position}
    (h : A.Step ⟨state, .active⟩ .finish result p) : result = .ok () ↔ A.Accepting state := by
  cases h with
  | accepted h => exact ⟨fun _ ↦ h, fun _ ↦ rfl⟩
  | refused h =>
    refine ⟨?_, fun h' ↦ absurd h' h⟩
    intro heq
    cases heq

/-- A label is followed just if it leads somewhere, and then to there. -/
theorem Step.transition_cases {source : StateName} {label : Label} {o : Outcome}
    (h : A.Step ⟨source, .active⟩ (.transition label) o.result o.machine.position) :
    (∃ target, A.target? source label = some target ∧ o.Followed ∧
      o.machine.position = ⟨target, .active⟩) ∨
      A.target? source label = none ∧ ¬o.Followed := by
  generalize hresult : o.result = result at h
  generalize o.machine.position = p at h
  cases h with
  | moved htarget => exact Or.inl ⟨_, htarget, Or.inl hresult, rfl⟩
  | failed failure htarget => exact Or.inl ⟨_, htarget, Or.inr ⟨_, failure, hresult⟩, rfl⟩
  | blocked htarget =>
    refine Or.inr ⟨htarget, ?_⟩
    rintro (h | ⟨state, failure, h⟩)
    · rw [hresult] at h
      cases h
    · rw [hresult] at h
      cases h

/-- The labels of a word are all followed just if the automaton can read the word. -/
theorem Follows.followed_iff {state : StateName} {word : List Label} {os : List Outcome}
    (h : A.Follows ⟨state, .active⟩ (word.map .transition) os) :
    (∀ o ∈ os, o.Followed) ↔ (A.walk? state word).isSome := by
  induction word generalizing state os with
  | nil =>
    cases h
    simp [walk?]
  | cons label rest ih =>
    rw [List.map_cons] at h
    cases h with
    | cons hstep hrest =>
      rw [List.forall_mem_cons, walk?, List.foldlM_cons]
      rcases hstep.transition_cases with ⟨target, htarget, hfollowed, hposition⟩ | ⟨htarget, hnot⟩
      · rw [hposition] at hrest
        rw [htarget, and_iff_right hfollowed]
        exact ih hrest
      · rw [htarget]
        simp [hnot]

/-- When all labels of a word are followed, the machine stands where the automaton does. -/
theorem Follows.walk?_eq {m : Machine} {state : StateName} {word : List Label} {os : List Outcome}
    (hm : m.position = ⟨state, .active⟩)
    (h : A.Follows m.position (word.map .transition) os) (hos : ∀ o ∈ os, o.Followed) :
    ∃ target, A.walk? state word = some target ∧ (m.after os).position = ⟨target, .active⟩ := by
  induction word generalizing m state os with
  | nil =>
    cases h
    exact ⟨state, rfl, hm⟩
  | cons label rest ih =>
    rw [hm, List.map_cons] at h
    cases h with
    | cons hstep hrest =>
      rw [List.forall_mem_cons] at hos
      rcases hstep.transition_cases with ⟨target, htarget, -, hposition⟩ | ⟨-, hnot⟩
      · rw [Machine.after_cons, walk?, List.foldlM_cons, htarget]
        exact ih hposition hrest hos.2
      · exact absurd hos.1 hnot

/-! ## Machines -/

section Machines

variable {g : Graph} (hA : A.Describes g)

include hA

/-- A call on a machine is a step of the automaton that describes the graph. -/
theorem step_call (past : List Invocation) (now : Instant) (m : Machine) (c : Call) :
    A.Step m.position c (m.call g past now c).result (m.call g past now c).machine.position := by
  have h := Machine.answers_call g past now m c
  generalize m.call g past now c = o at h
  cases h with
  | unusable c hstate =>
    rw [Machine.position, hstate]
    exact .unusable m.current c
  | blocked hstate htarget =>
    rw [Machine.position, hstate]
    exact .blocked (by rw [← hA.target?, htarget])
  | moved hstate htarget hcalls =>
    rw [Machine.position_move hstate, Machine.position, hstate]
    exact .moved (by rw [← hA.target?, htarget])
  | failed hstate htarget hcalls =>
    rw [Machine.position_move hstate, Machine.position, hstate]
    exact .failed _ (by rw [← hA.target?, htarget])
  | accepted hstate haccepting =>
    rw [Machine.position, hstate]
    exact .accepted ((hA.accepting _).1 haccepting)
  | refused hstate haccepting =>
    rw [Machine.position, hstate]
    refine .refused fun h ↦ ?_
    rw [(hA.accepting _).2 h] at haccepting
    cases haccepting

/-- **A machine follows the automaton that describes its graph.** -/
theorem follows_runAt (past : List Invocation) (m : Machine) (cs : List (Instant × Call)) :
    A.Follows m.position (cs.map (·.2)) (m.runAt g past cs) := by
  induction cs generalizing past m with
  | nil => exact .nil _
  | cons tc cs ih => exact .cons (step_call hA past tc.1 m tc.2) (ih _ _)

/-- After calls that spell a word and were all followed, finishing succeeds just if the automaton
accepts the word. -/
theorem finish_iff_accepts (past : List Invocation) (now : Instant) {m : Machine}
    {state : StateName} (hm : m.position = ⟨state, .active⟩) {cs : List (Instant × Call)}
    {word : List Label} (hcs : cs.map (·.2) = word.map .transition)
    (hfollowed : ∀ o ∈ m.runAt g past cs, o.Followed) :
    (m.runAt g past (cs ++ [(now, .finish)])).getLast?.map (·.result) = some (.ok ()) ↔
      A.Accepts state word := by
  have hfollows := follows_runAt hA past m cs
  rw [hcs] at hfollows
  rw [Machine.runAt_append]
  generalize m.runAt g past cs = os at hfollowed hfollows
  obtain ⟨target, hwalk, hposition⟩ := hfollows.walk?_eq hm hfollowed
  have hstep := step_call hA (Machine.known past os) now (m.after os) .finish
  rw [hposition] at hstep
  rw [Machine.runAt, Machine.runAt, List.getLast?_concat, Option.map_some, Option.some.injEq,
    hstep.finish_iff]
  constructor
  · exact fun h ↦ ⟨target, hwalk, h⟩
  · rintro ⟨target', hwalk', h⟩
    rw [hwalk, Option.some.injEq] at hwalk'
    rwa [hwalk']

end Machines

end Automaton

/-- Calls do not lead out of the graph. -/
theorem Machine.contains_call {g : Graph} (past : List Invocation) (now : Instant) (m : Machine)
    (c : Call) (hm : g.contains m.current = true) :
    g.contains (m.call g past now c).machine.current = true := by
  have h := answers_call g past now m c
  generalize m.call g past now c = o at h
  cases h with
  | unusable | blocked | accepted | refused => exact hm
  | moved hstate htarget hcalls => exact Graph.contains_target htarget
  | failed hstate htarget hcalls => exact Graph.contains_target htarget

namespace Builder

open Automaton

/-- To accept is taken of the states that were created before. -/
theorem result_accept_iff (config : Config) (ds : List Declaration) (state : StateName) :
    (((empty config).declareAll ds).declare (.accept state)).result = .ok () ↔
      IsCreated ds state := by
  have hknown : _ ↔ IsCreated ds state := (describes_declareAll config ds).known state
  have hresult := result_declare ((empty config).declareAll ds) (.accept state) rfl
  rw [hresult, ← hknown]
  by_cases hcontains : ((empty config).declareAll ds).graph.contains state = true
  · rw [if_pos hcontains]
    exact ⟨fun _ ↦ hcontains, fun _ ↦ rfl⟩
  · rw [if_neg hcontains]
    refine ⟨?_, fun h ↦ absurd h hcontains⟩
    intro heq
    cases heq

/-- **A machine implements the declared automaton.** From any declared state, call by call and
whenever the calls come, it answers as the automaton and stands where the automaton stands, always
in a declared state. So it follows the words that the automaton can read, and finishes after those
that the automaton accepts. -/
theorem machine_implements_automaton (config : Config) (ds : List Declaration) (state : StateName)
    (hstate : (ofDeclarations ds).Known state) :
    let A := ofDeclarations ds
    let b := (empty config).declareAll ds
    (∀ before name, (((empty config).declareAll before).declare (.accept name)).result = .ok () ↔
      IsCreated before name) ∧
    ∃ m, b.start state = .ok (m, .started state) ∧ m.position = ⟨state, .active⟩ ∧ ∀ past,
      (∀ cs, A.Follows ⟨state, .active⟩ (cs.map (·.2)) (m.runAt b.graph past cs) ∧
        ∀ o ∈ m.runAt b.graph past cs, b.graph.contains o.machine.current = true) ∧
      ∀ (word : List (Instant × Label)) (now : Instant),
        let cs := word.map fun x ↦ (x.1, Call.transition x.2)
        let followed := ∀ o ∈ m.runAt b.graph past cs, o.Followed
        let last? := (m.runAt b.graph past (cs ++ [(now, .finish)])).getLast?
        (followed ↔ (A.walk? state (word.map (·.2))).isSome) ∧
          (followed →
            (last?.map (·.result) = some (.ok ()) ↔ A.Accepts state (word.map (·.2)))) := by
  intro A b
  have hA : A.Describes b.graph := describes_declareAll config ds
  have hcontains : b.graph.contains state = true := (hA.known state).2 hstate
  have hstart : b.start state = .ok (Machine.start b.config state, .started state) :=
    start_eq_ok_iff.2 ⟨hcontains, rfl, rfl⟩
  refine ⟨result_accept_iff config, Machine.start b.config state, hstart, rfl,
    fun past ↦ ⟨?_, ?_⟩⟩
  · intro cs
    refine ⟨follows_runAt hA past (Machine.start b.config state) cs, ?_⟩
    exact Machine.forall_mem_runAt (P := fun m ↦ b.graph.contains m.current = true)
      (fun past now m c ↦ m.contains_call past now c) past cs hcontains
  · intro word now cs followed last?
    have hcs : cs.map (·.2) = (word.map (·.2)).map .transition := by
      rw [List.map_map, List.map_map]
      rfl
    have hfollows := follows_runAt hA past (Machine.start b.config state) cs
    rw [hcs] at hfollows
    exact ⟨hfollows.followed_iff, finish_iff_accepts hA past now rfl hcs⟩

/-- A turnstile. Its first path is replaced, and it is declared to accept once too early. -/
def turnstile : List Declaration :=
  [.path "locked" "coin" "locked", .accept "open", .path "locked" "coin" "open",
    .onEntry "open" (.failing "bell" ⟨"out of order", []⟩), .accept "open"]

theorem turnstile_implements :
    (ofDeclarations turnstile).Known "locked" ∧
      ∃ m, ((empty Config.standard).declareAll turnstile).start "locked" =
          .ok (m, .started "locked") ∧
        ∀ past before now, ((m.runAt ((empty Config.standard).declareAll turnstile).graph past
          [(before, .transition "coin"), (now, .finish)]).getLast?.map (·.result) =
            some (.ok ())) := by
  have hknown : (ofDeclarations turnstile).Known "locked" :=
    ⟨.path "locked" "coin" "locked", by simp [turnstile], Or.inl rfl⟩
  obtain ⟨-, m, hstart, -, hm⟩ := machine_implements_automaton .standard turnstile "locked" hknown
  refine ⟨hknown, m, hstart, fun past before now ↦ ?_⟩
  obtain ⟨hfollowed, hfinish⟩ := (hm past).2 [(before, "coin")] now
  have hwalk : (ofDeclarations turnstile).walk? "locked" ["coin"] = some "open" := by decide
  have hsome : ((ofDeclarations turnstile).walk? "locked" ["coin"]).isSome = true :=
    congrArg Option.isSome hwalk
  refine (hfinish (hfollowed.2 hsome)).2 ⟨"open", hwalk, ?_⟩
  exact ⟨turnstile.dropLast, [], rfl, .path "locked" "coin" "open", by simp [turnstile],
    Or.inr rfl⟩

end Builder

end LabelAutomaton
