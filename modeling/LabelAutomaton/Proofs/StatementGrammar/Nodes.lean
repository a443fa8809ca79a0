import LabelAutomaton.Proofs.Builder.Taken
import LabelAutomaton.Proofs.Machine.Reference
import LabelAutomaton.Proofs.StatementGrammar.Places

/-!
# The nodes of a run

A state makes nodes of one kind, or none: `kinds` and `silent` list them all. `Reads` says what
comes of a token that is read at a place, and `Walk` the same of tokens one after the other: a token
that leads somewhere moves the machine, and the state entered makes its node; a token that leads
nowhere is passed over.

The machine of the grammar walks from any place at which it stands (`exists_walk_run`), so what
holds of every token that is read holds of a whole run. In the end the nodes are those of the tokens
that moved the machine into a state that makes nodes (`nodes_tell_entries`).
-/

set_option autoImplicit false

namespace LabelAutomaton

namespace StatementGrammar

/-! ## Which nodes a state makes -/

/-- The kind of the nodes that a state makes, for each state that makes nodes. -/
def kinds : List (StateName × String) :=
  [("start", "end-statement"),
    ("let", "let"),
    ("let-identifier", "identifier"),
    ("let-type-identifier", "type"),
    ("expr-number", "number"),
    ("expr-quoted", "string"),
    ("expr-identifier", "identifier"),
    ("expr-operator", "operator"),
    ("let-expr-number", "number"),
    ("let-expr-quoted", "string"),
    ("let-expr-identifier", "identifier"),
    ("let-expr-operator", "operator")]

/-- The states that make no nodes. -/
def silent : List StateName := ["let-equals", "expr-paren-open", "let-expr-paren-open"]

theorem lookup_kinds_eq_none_iff (p : Place) :
    kinds.lookup p.stateName = none ↔ p.stateName ∈ silent := by
  cases p with
  | keyword | name | type => decide
  | within part spot => cases part <;> cases spot <;> decide

/-- A state has a callback for its node, and no other. -/
theorem callbacks_stateName (p : Place) :
    builder.graph.callbacks p.stateName =
      ((kinds.lookup p.stateName).map Callback.succeeding).toList := by
  rw [builder, Builder.callbacks_declareAll]
  cases p with
  | keyword | name | type => rfl
  | within part spot => cases part <;> cases spot <;> rfl

/-- The node that is made of the token when the state is entered. -/
def nodeIn? (state : StateName) (token : Token) : Option String :=
  (kinds.lookup state).map fun kind ↦ kind ++ "(" ++ token.text ++ ")"

/-- The node that is made of a token with this outcome: that of the state entered, if one was. -/
def nodeOf? (token : Token) (outcome : Outcome) : Option String :=
  ((Call.transition token.kind).entered? outcome).bind (nodeIn? · token)

/-! ## One token -/

/-- The machine goes on, and stands at the place. -/
def StandsAt (m : Machine) (p : Place) : Prop := m.position = ⟨p.stateName, .active⟩

/-- What comes of a token that is read at a place, and the place afterwards. -/
inductive Reads (p : Place) (token : Token) (o : Outcome) : Place → Prop
  /-- The token leads on. -/
  | moved {q : Place} (hleads : Leads p token.kind q) (hresult : o.result = .ok ())
      (hnodes : nodesOf token o = (nodeIn? q.stateName token).toList)
      (hstands : StandsAt o.machine q) : Reads p token o q
  /-- The token is passed over. -/
  | passed (hnowhere : ∀ q, ¬Leads p token.kind q)
      (hresult : o.result = .error (.invalidTransition p.stateName token.kind))
      (hnodes : nodesOf token o = []) (hstands : StandsAt o.machine p) : Reads p token o p

theorem Reads.standsAt {p q : Place} {token : Token} {o : Outcome} (h : Reads p token o q) :
    StandsAt o.machine q := by
  cases h with
  | moved _ _ _ hstands => exact hstands
  | passed _ _ _ hstands => exact hstands

theorem StandsAt.current {m : Machine} {p : Place} (h : StandsAt m p) : m.current = p.stateName :=
  congrArg Position.state h

theorem StandsAt.runState {m : Machine} {p : Place} (h : StandsAt m p) : m.runState = .active :=
  congrArg Position.runState h

/-- The callbacks of a place all succeed. -/
theorem runCallbacks_stateName (past : List Invocation) (p : Place) :
    runCallbacks past p.stateName 0 (builder.graph.callbacks p.stateName) =
      (((kinds.lookup p.stateName).map (⟨p.stateName, 0, ·⟩)).toList, none) := by
  rw [callbacks_stateName]
  cases kinds.lookup p.stateName <;> rfl

/-- **A token is read**, or passed over. -/
theorem exists_reads_call {m : Machine} {p : Place} (hm : StandsAt m p) (past : List Invocation)
    (now : Instant) (token : Token) :
    ∃ q, Reads p token (m.call builder.graph past now (.transition token.kind)) q := by
  have h := m.answers_call builder.graph past now (.transition token.kind)
  generalize m.call builder.graph past now (.transition token.kind) = o at h
  cases h with
  | unusable _ hstate => cases hm.runState.symm.trans hstate
  | blocked hstate htarget =>
    rw [hm.current] at htarget ⊢
    refine ⟨p, .passed (fun q hleads ↦ ?_) rfl rfl hm⟩
    rw [target?_stateName_iff.2 ⟨q, hleads, rfl⟩] at htarget
    cases htarget
  | moved hstate htarget hcalls =>
    rw [hm.current] at htarget
    obtain ⟨q, hleads, rfl⟩ := target?_stateName_iff.1 htarget
    obtain ⟨rfl, -⟩ := Prod.mk.inj (hcalls.symm.trans (runCallbacks_stateName past q))
    refine ⟨q, .moved hleads rfl ?_ (Machine.position_move hstate now _ _)⟩
    rw [nodesOf, nodeIn?]
    cases kinds.lookup q.stateName <;> rfl
  | failed hstate htarget hcalls =>
    rw [hm.current] at htarget
    obtain ⟨q, -, rfl⟩ := target?_stateName_iff.1 htarget
    rw [runCallbacks_stateName] at hcalls
    cases hcalls

/-- A token that leads on has entered a state, which makes its node; one that is passed over has
entered none. -/
theorem Reads.entered_or_passed {p q : Place} {token : Token} {o : Outcome}
    (h : Reads p token o q) :
    (Leads p token.kind q ∧ (Call.transition token.kind).entered? o = some q.stateName ∧
      nodesOf token o = (nodeIn? q.stateName token).toList) ∨
      (Call.transition token.kind).entered? o = none ∧ nodesOf token o = [] := by
  cases h with
  | moved hleads hresult hnodes hstands =>
    have hfollowed : o.Followed := Or.inl hresult
    refine Or.inl ⟨hleads, ?_, hnodes⟩
    rw [Call.entered?, if_pos hfollowed, hstands.current]
  | passed hnowhere hresult hnodes hstands =>
    have hnot : ¬o.Followed := by simp [Outcome.Followed, hresult]
    exact Or.inr ⟨if_neg hnot, hnodes⟩

/-- What a token enters is a state of the graph. -/
theorem Reads.contains_of_entered? {p q : Place} {token : Token} {o : Outcome}
    (h : Reads p token o q) {state : StateName}
    (hentered : (Call.transition token.kind).entered? o = some state) :
    builder.graph.contains state = true := by
  obtain ⟨-, hplace, -⟩ | ⟨hnone, -⟩ := h.entered_or_passed
  · obtain rfl : q.stateName = state := Option.some.inj (hplace.symm.trans hentered)
    exact contains_iff.2 ⟨q, rfl⟩
  · cases hnone.symm.trans hentered

theorem Reads.nodesOf_eq {p q : Place} {token : Token} {o : Outcome} (h : Reads p token o q) :
    nodesOf token o = (nodeOf? token o).toList := by
  rw [nodeOf?]
  obtain ⟨-, hentered, hnodes⟩ | ⟨hentered, hnodes⟩ := h.entered_or_passed
  · rw [hnodes, hentered, Option.bind_some]
  · rw [hnodes, hentered]
    rfl

/-! ## All tokens -/

/-- What comes of tokens that are read one after the other from a place on, and the place
afterwards. -/
inductive Walk : Place → List Token → List Outcome → Place → Prop
  /-- There are no tokens. -/
  | nil (p : Place) : Walk p [] [] p
  /-- The first token is read, and the others from there on. -/
  | cons {p q r : Place} {token : Token} {o : Outcome} {tokens : List Token} {os : List Outcome}
      (hfirst : Reads p token o q) (hrest : Walk q tokens os r) :
      Walk p (token :: tokens) (o :: os) r

/-- **A machine that stands at a place walks from there.** -/
theorem exists_walk_run {m : Machine} {p : Place} (hm : StandsAt m p) (past : List Invocation)
    (now : Instant) (tokens : List Token) : ∃ q, Walk p tokens
      (m.run builder.graph now past (tokens.map fun t ↦ .transition t.kind)) q := by
  induction tokens generalizing m p past with
  | nil => exact ⟨p, .nil p⟩
  | cons token tokens ih =>
    obtain ⟨q, hfirst⟩ := exists_reads_call hm past now token
    obtain ⟨r, hrest⟩ := ih hfirst.standsAt _
    exact ⟨r, .cons hfirst hrest⟩

namespace Walk

variable {p q : Place} {tokens : List Token} {os : List Outcome}

theorem length_eq (h : Walk p tokens os q) : os.length = tokens.length := by
  induction h with
  | nil => rfl
  | cons _ _ ih => rw [List.length_cons, List.length_cons, ih]

theorem standsAt {m : Machine} (h : Walk p tokens os q) (hm : StandsAt m p) :
    StandsAt (m.after os) q := by
  induction h generalizing m with
  | nil => exact hm
  | cons hfirst _ ih =>
    rw [Machine.after_cons]
    exact ih hfirst.standsAt

/-- On a walk, every token is read somewhere. -/
theorem exists_reads_of_mem (h : Walk p tokens os q) {x : Token × Outcome}
    (hx : x ∈ tokens.zip os) : ∃ p q, Reads p x.1 x.2 q := by
  induction h with
  | nil => cases hx
  | cons hfirst _ ih =>
    rcases List.mem_cons.1 hx with rfl | hx
    · exact ⟨_, _, hfirst⟩
    · exact ih hx

end Walk

/-- The grammar is declared without a failure. -/
theorem all_isOk_results : ((Builder.empty Config.standard).results declarations).all (·.isOk) := by
  decide +kernel

/-- The run begins with the machine that the grammar starts. -/
theorem start_builder : builder.start "start" = .ok (initial, .started "start") := by
  have hcontains : builder.graph.contains "start" = true := contains_iff.2 ⟨.start, rfl⟩
  exact Builder.start_eq_ok_iff.2 ⟨hcontains, rfl, rfl⟩

theorem standsAt_initial : StandsAt initial .start := by
  rw [StandsAt, initial]
  rfl

theorem exists_walk_outcomes (tokens : List Token) : ∃ p, Walk .start tokens (outcomes tokens) p :=
  exists_walk_run standsAt_initial [] default tokens

/-- **Nodes tell what was entered.** The grammar is declared without a failure, and a machine starts
in `start`. Each token is read, or leads nowhere from where the machine then stands; no callback
fails. What is entered is a state of the graph, and so makes a node unless it is silent: the nodes
are, in the order of the tokens, one for each token that moved the machine into a state other than
the silent ones, of that state's kind and with the token's text. The run can finish just if it has
come back to `start`. -/
theorem nodes_tell_entries (tokens : List Token) :
    ((Builder.empty Config.standard).results declarations).all (·.isOk) ∧
      builder.start "start" = .ok (initial, .started "start") ∧
      (∀ state, builder.graph.contains state = true →
        (kinds.lookup state = none ↔ state ∈ silent)) ∧
      (outcomes tokens).length = tokens.length ∧
      (∀ x ∈ tokens.zip (outcomes tokens), x.2.result = .ok () ∨
        x.2.result = .error (.invalidTransition x.2.machine.current x.1.kind)) ∧
      (∀ x ∈ tokens.zip (outcomes tokens), ∀ state,
        (Call.transition x.1.kind).entered? x.2 = some state →
          builder.graph.contains state = true) ∧
      nodes tokens = (tokens.zip (outcomes tokens)).filterMap (fun x ↦ nodeOf? x.1 x.2) ∧
      (finish tokens = .ok () ↔ (initial.after (outcomes tokens)).current = "start") := by
  obtain ⟨q, hwalk⟩ := exists_walk_outcomes tokens
  refine ⟨all_isOk_results, start_builder, fun state hstate ↦ ?_, hwalk.length_eq, fun x hx ↦ ?_,
    fun x hx state hentered ↦ ?_, ?_, ?_⟩
  · obtain ⟨p, rfl⟩ := contains_iff.1 hstate
    exact lookup_kinds_eq_none_iff p
  · obtain ⟨p, q, hreads⟩ := hwalk.exists_reads_of_mem hx
    cases hreads with
    | moved _ hresult => exact Or.inl hresult
    | passed _ hresult _ hstands => exact Or.inr (by rw [hresult, hstands.current])
  · obtain ⟨p, q, hreads⟩ := hwalk.exists_reads_of_mem hx
    exact hreads.contains_of_entered? hentered
  · rw [nodes, List.filterMap_eq_flatMap_toList]
    refine List.flatMap_congr fun x hx ↦ ?_
    obtain ⟨p, q, hreads⟩ := hwalk.exists_reads_of_mem hx
    exact hreads.nodesOf_eq
  · have hstep := Automaton.step_call (Builder.describes_declareAll Config.standard declarations) []
      default (initial.after (outcomes tokens)) .finish
    have hfinal : StandsAt (initial.after (outcomes tokens)) q := hwalk.standsAt standsAt_initial
    rw [hfinal] at hstep
    rw [hfinal.current]
    exact hstep.finish_iff.trans accepting_iff

example : nodes sample =
    ["let(let)", "identifier(total)", "type(int)", "number(1)", "operator(+)", "identifier(count)",
      "end-statement(;)", "identifier(println)", "string(done)", "end-statement())",
      "end-statement(;)"] := by
  decide +kernel

end StatementGrammar

end LabelAutomaton
