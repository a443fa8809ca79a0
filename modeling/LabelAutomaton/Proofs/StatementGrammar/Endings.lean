import LabelAutomaton.Proofs.StatementGrammar.Twins

/-!
# Where statements end

The state `start` makes the node that ends a statement, so there is such a node whenever the machine
comes back there. A semicolon leads nowhere else. But an expression in parentheses too comes back to
where it began, and if it began as a statement, that is `start`; nothing else leads there
(`target?_eq_start_iff`). In a `let` the parenthesis leads to `let-equals` and ends nothing.

So one node is made, in their order, for each semicolon that moves the machine and for each closing
parenthesis that leads to `start`; the semicolons alone make them just if no parenthesis leads there
(`statements_end_with`). A call with an argument is ended twice (`statement_ends_twice`).
-/

set_option autoImplicit false

namespace LabelAutomaton

namespace StatementGrammar

/-- The states in which a semicolon can be read. -/
def closable : List StateName :=
  ["start", "expr-identifier", "expr-number", "expr-quoted", "let-expr-identifier",
    "let-expr-number", "let-expr-quoted"]

/-- The states in which a closing parenthesis leads to `start`. -/
def returnable : List StateName := ["expr-number", "expr-quoted"]

/-- The node that ends a statement with this token. -/
def ending (token : Token) : String := "end-statement(" ++ token.text ++ ")"

/-- Whether the token is a semicolon that has moved the machine. -/
def isSemicolon (x : Token × Outcome) : Bool :=
  x.1.kind == "semicolon" && ((Call.transition x.1.kind).entered? x.2).isSome

/-- Whether the token is a closing parenthesis that has led to `start`. -/
def isReturn (x : Token × Outcome) : Bool :=
  x.1.kind == "paren-close" && (Call.transition x.1.kind).entered? x.2 == some "start"

/-! ## The ways to `start` -/

theorem mem_closable_iff (p : Place) :
    p.stateName ∈ closable ↔ p = .start ∨ ∃ part s, p = .within part s ∧ s.closes = true := by
  cases p with
  | keyword | name | type => exact iff_of_false (by decide) (by simp [Place.start])
  | within part s => cases part <;> cases s <;> simp [Place.start, Spot.closes] <;> decide

theorem mem_returnable_iff (p : Place) :
    p.stateName ∈ returnable ↔
      ∃ s, p = .within .statement s ∧ ("paren-close", Spot.entry) ∈ s.exits := by
  cases p with
  | keyword | name | type => exact iff_of_false (by decide) (by simp)
  | within part s => cases part <;> cases s <;> simp [Spot.exits] <;> decide

/-- Within an expression, a closing parenthesis alone leads to where it began. -/
theorem Spot.eq_paren_close {s : Spot} {label : Label} (h : (label, entry) ∈ s.exits) :
    label = "paren-close" := by
  cases s with
  | number => simpa [exits] using h
  | quoted => simpa [exits] using h
  | entry | identifier | operator | parenOpen => simp [exits] at h

theorem leads_semicolon_iff {p q : Place} :
    Leads p "semicolon" q ↔ p.stateName ∈ closable ∧ q = .start := by
  rw [mem_closable_iff]
  constructor
  · intro h
    generalize hlabel : "semicolon" = label at h
    cases h with
    | empty => exact ⟨Or.inl rfl, rfl⟩
    | keyword | name | type | equals => exact absurd hlabel (by decide)
    | inside part hexit => exact absurd hexit (Spot.not_mem_exits (Or.inl hlabel.symm))
    | close part hcloses => exact ⟨Or.inr ⟨_, _, rfl, hcloses⟩, rfl⟩
  · rintro ⟨rfl | ⟨part, s, rfl, hcloses⟩, rfl⟩
    · exact .empty
    · exact .close part hcloses

theorem leads_start_iff {p : Place} {label : Label} :
    Leads p label .start ↔ label = "semicolon" ∧ p.stateName ∈ closable ∨
      label = "paren-close" ∧ p.stateName ∈ returnable := by
  constructor
  · intro h
    by_cases hlabel : label = "semicolon"
    · subst hlabel
      exact Or.inl ⟨rfl, (leads_semicolon_iff.1 h).1⟩
    · generalize hq : Place.start = q at h
      cases h with
      | empty | close => exact absurd rfl hlabel
      | keyword | name | type | equals => cases hq
      | inside part hexit =>
        cases hq
        obtain rfl := Spot.eq_paren_close hexit
        exact Or.inr ⟨rfl, (mem_returnable_iff _).2 ⟨_, rfl, hexit⟩⟩
  · rintro (⟨rfl, hp⟩ | ⟨rfl, hp⟩)
    · exact leads_semicolon_iff.2 ⟨hp, rfl⟩
    · obtain ⟨s, rfl, hexit⟩ := (mem_returnable_iff p).1 hp
      exact .inside .statement hexit

/-- **What leads to `start`**: a semicolon, and a closing parenthesis in a statement. -/
theorem target?_eq_start_iff {state : StateName} {label : Label} :
    builder.graph.target? state label = some "start" ↔
      label = "semicolon" ∧ state ∈ closable ∨ label = "paren-close" ∧ state ∈ returnable := by
  have hplaces : closable ++ returnable ⊆ Place.all.map (·.stateName) := by decide
  constructor
  · intro h
    rw [builder, Builder.target?_declareAll_iff] at h
    obtain ⟨p, q, hleads, rfl, hq⟩ := path_mem_declarations_iff.1 h.mem
    obtain rfl : q = .start := Place.stateName_injective hq
    exact leads_start_iff.1 hleads
  · intro h
    have hmem : state ∈ closable ++ returnable :=
      List.mem_append.2 (h.imp And.right And.right)
    obtain ⟨p, -, rfl⟩ := List.mem_map.1 (hplaces hmem)
    exact target?_stateName_iff.2 ⟨.start, leads_start_iff.2 h, rfl⟩

/-! ## One token -/

theorem filter_nodeIn? (q : Place) (token : Token) :
    (nodeIn? q.stateName token).toList.filter endsStatement =
      if q = .start then [ending token] else [] := by
  cases q with
  | keyword | name | type =>
    simp [nodeIn?, Place.stateName, kinds, List.lookup_cons, endsStatement, Place.start]
  | within part s =>
    cases part <;> cases s <;>
      simp [nodeIn?, Place.stateName, Spot.name, Part.stem, Part.entry, kinds, List.lookup_cons,
        endsStatement, Place.start, ending]

/-- **A token ends a statement** if it is a semicolon that has moved the machine or a closing
parenthesis that has led to `start`. -/
theorem Reads.filter_nodesOf {p q : Place} {token : Token} {o : Outcome}
    (h : Reads p token o q) :
    (nodesOf token o).filter endsStatement =
      if isSemicolon (token, o) || isReturn (token, o) then [ending token] else [] := by
  obtain ⟨hleads, hentered, hnodes⟩ | ⟨hentered, hnodes⟩ := h.entered_or_passed
  · have hiff : q = .start ↔ (isSemicolon (token, o) || isReturn (token, o)) = true := by
      simp only [isSemicolon, isReturn, hentered, Option.isSome_some, Bool.and_true,
        Bool.or_eq_true, Bool.and_eq_true, beq_iff_eq, Option.some.injEq]
      constructor
      · rintro rfl
        obtain ⟨hkind, -⟩ | ⟨hkind, -⟩ := leads_start_iff.1 hleads
        · exact Or.inl hkind
        · exact Or.inr ⟨hkind, rfl⟩
      · rintro (hkind | ⟨-, hname⟩)
        · exact (leads_semicolon_iff.1 (hkind ▸ hleads)).2
        · exact Place.stateName_injective hname
    rw [hnodes, filter_nodeIn?]
    exact if_congr hiff rfl rfl
  · rw [hnodes, isSemicolon, isReturn, hentered]
    simp

/-! ## All tokens -/

/-- The nodes that end statements on a walk. -/
theorem Walk.filter_nodes {p q : Place} {tokens : List Token} {os : List Outcome}
    (h : Walk p tokens os q) :
    ((tokens.zip os).flatMap fun x ↦ nodesOf x.1 x.2).filter endsStatement =
      ((tokens.zip os).filter fun x ↦ isSemicolon x || isReturn x).map (ending ·.1) := by
  induction h with
  | nil => rfl
  | cons hfirst _ ih =>
    rw [List.zip_cons_cons, List.flatMap_cons, List.filter_append, hfirst.filter_nodesOf, ih,
      List.filter_cons]
    split <;> rfl

/-- A semicolon is no parenthesis. -/
theorem isReturn_eq_false_of_isSemicolon {x : Token × Outcome} (h : isSemicolon x = true) :
    isReturn x = false := by
  have hkind : x.1.kind = "semicolon" := beq_iff_eq.1 (Bool.and_eq_true_iff.1 h).1
  simp [isReturn, hkind]

/-- The semicolons are all that ends statements just if no parenthesis does. -/
theorem map_ending_eq_iff (xs : List (Token × Outcome)) :
    (xs.filter fun x ↦ isSemicolon x || isReturn x).map (ending ·.1) =
        (xs.filter isSemicolon).map (ending ·.1) ↔
      ∀ x ∈ xs, isReturn x = false := by
  constructor
  · intro h x hx
    have hsublist : (xs.filter isSemicolon).Sublist
        (xs.filter fun x ↦ isSemicolon x || isReturn x) :=
      List.monotone_filter_right xs fun x hx ↦ by simp [hx]
    have hlength := congrArg List.length h
    rw [List.length_map, List.length_map] at hlength
    have heq := hsublist.eq_of_length hlength.symm
    rw [Bool.eq_false_iff]
    intro hreturn
    have hmem : x ∈ xs.filter isSemicolon := by
      rw [heq]
      exact List.mem_filter.2 ⟨hx, by simp [hreturn]⟩
    rw [isReturn_eq_false_of_isSemicolon (List.mem_filter.1 hmem).2] at hreturn
    cases hreturn
  · intro h
    rw [List.filter_congr fun x hx ↦ by rw [h x hx, Bool.or_false]]

/-- **Statements end with a semicolon, or with a parenthesis that leads to `start`.** A token makes
a node that ends a statement just if it is one of these, and then one node with its own text. All
such nodes are theirs, in their order. The semicolons alone make them just if no closing parenthesis
has led to `start`, as it does from `expr-number` and from `expr-quoted`. -/
theorem statements_end_with (tokens : List Token) :
    (∀ state label, builder.graph.target? state label = some "start" ↔
      label = "semicolon" ∧ state ∈ closable ∨ label = "paren-close" ∧ state ∈ returnable) ∧
    (∀ x ∈ tokens.zip (outcomes tokens), (nodesOf x.1 x.2).filter endsStatement =
      if isSemicolon x || isReturn x then [ending x.1] else []) ∧
    (nodes tokens).filter endsStatement =
      ((tokens.zip (outcomes tokens)).filter fun x ↦ isSemicolon x || isReturn x).map
        (ending ·.1) ∧
    ((nodes tokens).filter endsStatement =
        ((tokens.zip (outcomes tokens)).filter isSemicolon).map (ending ·.1) ↔
      ∀ x ∈ tokens.zip (outcomes tokens), isReturn x = false) := by
  obtain ⟨q, hwalk⟩ := exists_walk_outcomes tokens
  have hnodes : (nodes tokens).filter endsStatement =
      ((tokens.zip (outcomes tokens)).filter fun x ↦ isSemicolon x || isReturn x).map
        (ending ·.1) := hwalk.filter_nodes
  refine ⟨fun _ _ ↦ target?_eq_start_iff, fun x hx ↦ ?_, hnodes, ?_⟩
  · obtain ⟨p, q, hreads⟩ := hwalk.exists_reads_of_mem hx
    exact hreads.filter_nodesOf
  · rw [hnodes]
    exact map_ending_eq_iff _

/-- The statement `println("done");`. -/
def printing : List Token := sample.drop 8

/-- **A statement can end twice**: the parenthesis of a call ends it before the semicolon does, and
makes a node that no semicolon makes. -/
theorem statement_ends_twice :
    nodes printing =
        ["identifier(println)", "string(done)", "end-statement())", "end-statement(;)"] ∧
      ¬∀ tokens, (nodes tokens).filter endsStatement =
        ((tokens.zip (outcomes tokens)).filter isSemicolon).map (ending ·.1) := by
  have hnodes : nodes printing =
      ["identifier(println)", "string(done)", "end-statement())", "end-statement(;)"] := by
    decide +kernel
  have hsemicolons : ((printing.zip (outcomes printing)).filter isSemicolon).map (ending ·.1) =
      ["end-statement(;)"] := by
    decide +kernel
  refine ⟨hnodes, fun h ↦ ?_⟩
  have hends := h printing
  rw [hnodes, hsemicolons] at hends
  exact absurd hends (by decide)

end StatementGrammar

end LabelAutomaton
