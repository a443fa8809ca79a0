import LabelAutomaton.Proofs.StatementGrammar.Nodes

/-!
# Expressions behave alike

The grammar has expressions in two parts: as statements, where they begin in `start`, and behind the
equals sign of a `let`, where they begin in `let-equals`. A spot of an expression makes one state in
each part; the two are `Twin`s, and their names show it.

From twin states on, every token but a semicolon and a `let` has outcomes that correspond
(`Reads.twin`): both machines move, to twin states again, or both stay. They make the same nodes
too, but that an expression that comes back to where it began makes a node in the first part only.
Token by token, so do runs (`Walk.twins`), and a run through the words that begin a `let` goes on
as a run from the beginning does (`expressions_behave_alike`).
-/

set_option autoImplicit false

namespace LabelAutomaton

namespace StatementGrammar

/-- The states are made by one spot of an expression, the first in a statement and the second in a
`let`. -/
inductive Twin : StateName → StateName → Prop
  /-- Expressions begin there. -/
  | entry : Twin "start" "let-equals"
  /-- The names differ in how they begin. -/
  | inner (spot : String) : Twin ("expr-" ++ spot) ("let-expr-" ++ spot)

/-- The outcomes of a token for two machines: both have moved, or the token leads nowhere for both;
and they stand at twins. -/
inductive Corresponds (o o' : Outcome) : Prop
  /-- Both have moved. -/
  | moved (hresult : o.result = .ok ()) (hresult' : o'.result = .ok ())
      (htwin : Twin o.machine.current o'.machine.current)
  /-- The token leads nowhere for both. -/
  | passed (label : Label)
      (hresult : o.result = .error (.invalidTransition o.machine.current label))
      (hresult' : o'.result = .error (.invalidTransition o'.machine.current label))
      (htwin : Twin o.machine.current o'.machine.current)

/-- Whether the node says that a statement ends. -/
def endsStatement (node : String) : Bool := "end-statement(".toList.isPrefixOf node.toList

/-! ## Twins -/

theorem twin_stateName (s : Spot) :
    Twin (Place.within .statement s).stateName (Place.within .binding s).stateName := by
  cases s with
  | entry => exact .entry
  | number => exact .inner "number"
  | quoted => exact .inner "quoted"
  | identifier => exact .inner "identifier"
  | operator => exact .inner "operator"
  | parenOpen => exact .inner "paren-open"

theorem twin_of_standsAt {m m' : Machine} {s : Spot} (h : StandsAt m (.within .statement s))
    (h' : StandsAt m' (.within .binding s)) : Twin m.current m'.current := by
  rw [h.current, h'.current]
  exact twin_stateName s

/-- Twins make the same node, but for the one that ends a statement. -/
theorem nodeIn?_binding (s : Spot) (token : Token) :
    (nodeIn? (Place.within .binding s).stateName token).toList =
      (nodeIn? (Place.within .statement s).stateName token).toList.filter (!endsStatement ·) := by
  cases s <;> simp [nodeIn?, Place.stateName, Spot.name, Part.stem, Part.entry, kinds,
    List.lookup_cons, endsStatement, List.filter_cons]

/-! ## One token -/

/-- Without a semicolon and a `let`, an expression is not left. -/
theorem Leads.exists_exit {part : Part} {s : Spot} {label : Label} {q : Place}
    (h : Leads (.within part s) label q) (hlabel : label ≠ "semicolon" ∧ label ≠ "let") :
    ∃ t, (label, t) ∈ s.exits ∧ q = .within part t := by
  obtain hexit | ⟨hsemicolon, -⟩ | ⟨hlet, -⟩ := h.within_cases
  · exact hexit
  · exact absurd hsemicolon hlabel.1
  · exact absurd hlet hlabel.2

/-- **Twins read a token alike.** -/
theorem Reads.twin {s : Spot} {token : Token} {o o' : Outcome} {q q' : Place}
    (h : Reads (.within .statement s) token o q) (h' : Reads (.within .binding s) token o' q')
    (hkind : token.kind ≠ "semicolon" ∧ token.kind ≠ "let") :
    ∃ t, q = .within .statement t ∧ q' = .within .binding t ∧ Corresponds o o' ∧
      nodesOf token o' = (nodesOf token o).filter (!endsStatement ·) := by
  cases h with
  | moved hleads hresult hnodes hstands =>
    obtain ⟨t, hexit, rfl⟩ := hleads.exists_exit hkind
    cases h' with
    | moved hleads' hresult' hnodes' hstands' =>
      obtain rfl := hleads'.eq (.inside .binding hexit)
      exact ⟨t, rfl, rfl, .moved hresult hresult' (twin_of_standsAt hstands hstands'),
        by rw [hnodes', hnodes, nodeIn?_binding]⟩
    | passed hnowhere' => exact absurd (.inside .binding hexit) (hnowhere' _)
  | passed hnowhere hresult hnodes hstands =>
    cases h' with
    | moved hleads' =>
      obtain ⟨t, hexit, -⟩ := hleads'.exists_exit hkind
      exact absurd (.inside .statement hexit) (hnowhere _)
    | passed hnowhere' hresult' hnodes' hstands' =>
      rw [← hstands.current] at hresult
      rw [← hstands'.current] at hresult'
      have htwin := twin_of_standsAt hstands hstands'
      refine ⟨s, rfl, rfl, .passed token.kind hresult hresult' htwin, ?_⟩
      rw [hnodes', hnodes]
      rfl

/-! ## All tokens -/

/-- **Twins walk alike.** -/
theorem Walk.twins {s : Spot} {tokens : List Token} {os os' : List Outcome} {q q' : Place}
    (h : Walk (.within .statement s) tokens os q) (h' : Walk (.within .binding s) tokens os' q')
    (htokens : ∀ t ∈ tokens, t.kind ≠ "semicolon" ∧ t.kind ≠ "let") :
    List.Forall₂ Corresponds os os' ∧
      (tokens.zip os').flatMap (fun x ↦ nodesOf x.1 x.2) =
        ((tokens.zip os).flatMap fun x ↦ nodesOf x.1 x.2).filter (!endsStatement ·) := by
  induction tokens generalizing s os os' with
  | nil =>
    cases h
    cases h'
    exact ⟨.nil, rfl⟩
  | cons token tokens ih =>
    obtain ⟨htoken, htokens⟩ := List.forall_mem_cons.1 htokens
    cases h with
    | cons hfirst hrest =>
      cases h' with
      | cons hfirst' hrest' =>
        obtain ⟨t, rfl, rfl, hcorresponds, hnodes⟩ := hfirst.twin hfirst' htoken
        obtain ⟨hall, hallnodes⟩ := ih hrest hrest' htokens
        refine ⟨.cons hcorresponds hall, ?_⟩
        rw [List.zip_cons_cons, List.zip_cons_cons, List.flatMap_cons, List.flatMap_cons,
          List.filter_append, hnodes, hallnodes]

/-- A token that leads on moves the machine there, and the walk goes on from there. -/
theorem Walk.cons_of_leads {p q r : Place} {label : Label} {token : Token} {tokens : List Token}
    {os : List Outcome} (h : Walk p (token :: tokens) os r) (hleads : Leads p label q)
    (hkind : token.kind = label) : ∃ o os', os = o :: os' ∧ o.result = .ok () ∧
      Walk q tokens os' r := by
  subst hkind
  cases h with
  | cons hfirst hrest =>
    cases hfirst with
    | moved hleads' hresult => exact ⟨_, _, rfl, hresult, hleads'.eq hleads ▸ hrest⟩
    | passed hnowhere => exact absurd hleads (hnowhere q)

/-- The words that begin a `let` lead to its expression. -/
theorem Walk.of_opening {opening : List Token} {os : List Outcome} {q : Place}
    (h : Walk .start opening os q)
    (hopening : opening.map (·.kind) = ["let", "identifier", "identifier", "equals"]) :
    (∀ o ∈ os, o.result = .ok ()) ∧ q = .within .binding .entry := by
  simp only [List.map_eq_cons_iff, List.map_eq_nil_iff] at hopening
  obtain ⟨keyword, _, rfl, hkeyword, name, _, rfl, hname, type, _, rfl, htype, equals, _, rfl,
    hequals, rfl⟩ := hopening
  obtain ⟨o₁, _, rfl, h₁, h⟩ := h.cons_of_leads .keyword hkeyword
  obtain ⟨o₂, _, rfl, h₂, h⟩ := h.cons_of_leads .name hname
  obtain ⟨o₃, _, rfl, h₃, h⟩ := h.cons_of_leads .type htype
  obtain ⟨o₄, _, rfl, h₄, h⟩ := h.cons_of_leads .equals hequals
  cases h
  exact ⟨by simp [h₁, h₂, h₃, h₄], rfl⟩

/-- Tokens are read from where those before them have led. -/
theorem outcomes_append (tokens tokens' : List Token) :
    outcomes (tokens ++ tokens') =
      outcomes tokens ++ (final tokens).run builder.graph default
        (Machine.known [] (outcomes tokens)) (tokens'.map fun t ↦ .transition t.kind) := by
  rw [outcomes, Machine.run, List.map_append, List.map_append, Machine.runAt_append]
  rfl

/-- **Expressions behave alike in both parts.** Let tokens without a semicolon and a `let` be read
from the beginning, and again behind the words that begin a `let`. Token by token both machines
move, or the token leads nowhere for both, and their states are twins. The second run adds the
nodes of the first but those that end statements. -/
theorem expressions_behave_alike (opening tokens : List Token)
    (hopening : opening.map (·.kind) = ["let", "identifier", "identifier", "equals"])
    (htokens : ∀ t ∈ tokens, t.kind ≠ "semicolon" ∧ t.kind ≠ "let") :
    (∀ o ∈ outcomes opening, o.result = .ok ()) ∧ Twin initial.current (final opening).current ∧
      ∃ os, outcomes (opening ++ tokens) = outcomes opening ++ os ∧
        List.Forall₂ Corresponds (outcomes tokens) os ∧
        nodes (opening ++ tokens) = nodes opening ++ (nodes tokens).filter (!endsStatement ·) := by
  obtain ⟨_, hopened⟩ := exists_walk_outcomes opening
  obtain ⟨hok, rfl⟩ := hopened.of_opening hopening
  have hfinal := hopened.standsAt standsAt_initial
  obtain ⟨_, hfirst⟩ := exists_walk_outcomes tokens
  obtain ⟨_, hsecond⟩ := exists_walk_run hfinal (Machine.known [] (outcomes opening)) default tokens
  obtain ⟨hcorrespond, hnodes⟩ := hfirst.twins hsecond htokens
  refine ⟨hok, twin_of_standsAt standsAt_initial hfinal, _, outcomes_append opening tokens,
    hcorrespond, ?_⟩
  rw [nodes, outcomes_append, List.zip_append hopened.length_eq.symm, List.flatMap_append]
  exact congrArg (nodes opening ++ ·) hnodes

/-- An expression that comes back to where it began, with a token that leads nowhere. -/
def returning : List Token := [⟨"number", "1"⟩, ⟨"equals", "="⟩, ⟨"paren-close", ")"⟩]

theorem returning_behaves_alike :
    (sample.take 4).map (·.kind) = ["let", "identifier", "identifier", "equals"] ∧
      (∀ t ∈ returning, t.kind ≠ "semicolon" ∧ t.kind ≠ "let") ∧
      nodes returning = ["number(1)", "end-statement())"] ∧
      nodes (sample.take 4 ++ returning) = nodes (sample.take 4) ++ ["number(1)"] := by
  have hopening : (sample.take 4).map (·.kind) = ["let", "identifier", "identifier", "equals"] :=
    rfl
  have htokens : ∀ t ∈ returning, t.kind ≠ "semicolon" ∧ t.kind ≠ "let" := by simp [returning]
  have hreturning : nodes returning = ["number(1)", "end-statement())"] := by decide +kernel
  obtain ⟨-, -, os, -, -, hnodes⟩ :=
    expressions_behave_alike (sample.take 4) returning hopening htokens
  refine ⟨hopening, htokens, hreturning, ?_⟩
  rw [hnodes, hreturning]
  rfl

end StatementGrammar

end LabelAutomaton
