import LabelAutomaton.Proofs.Builder.Replaced
import LabelAutomaton.StatementGrammar

/-!
# The places of the statement grammar

The grammar writes the states of an expression down twice, under names put together from strings.
Here the same is said without names. A `Spot` is a state of an expression, whichever expression it
is; a `Place` is a state of the grammar: behind one of the words that begin a `let`, or at a spot in
one of the two parts where expressions stand. `Leads` says which labels lead from place to place.

`path_mem_expression_iff` reads the paths of an expression off its declarations, for any names, and
`path_mem_declarations_iff` those of the grammar. As no two places share a name
(`Place.stateName_injective`) and a label leads from a place to one place at most (`Leads.eq`), no
path takes the place of another. So the graph has the states that are places (`contains_iff`) and
the transitions that `Leads` has (`target?_stateName_iff`), and no others.
-/

set_option autoImplicit false

namespace LabelAutomaton

namespace StatementGrammar

/-! ## Expressions -/

/-- A state of an expression. -/
inductive Spot where
  | entry
  | number
  | quoted
  | identifier
  | operator
  | parenOpen
deriving DecidableEq

namespace Spot

/-- All spots, in the order in which the grammar has their paths. -/
def all : List Spot := [entry, identifier, parenOpen, operator, number, quoted]

theorem mem_all (s : Spot) : s ∈ all := by cases s <;> decide

/-- The labels that lead on within the expression, and where to. -/
def exits : Spot → List (Label × Spot)
  | entry => [("number", number), ("quoted", quoted), ("identifier", identifier)]
  | identifier => [("operator", operator), ("paren-open", parenOpen)]
  | parenOpen => [("number", number), ("quoted", quoted)]
  | operator => [("number", number), ("identifier", identifier)]
  | number => [("operator", operator), ("paren-close", entry)]
  | quoted => [("paren-close", entry)]

/-- Whether the expression can end in the spot. -/
def closes : Spot → Bool
  | identifier | number | quoted => true
  | entry | parenOpen | operator => false

theorem nodup_exits (s : Spot) : (s.exits.map Prod.fst).Nodup := by cases s <;> decide

theorem eq_of_mem_exits {s t t' : Spot} {label : Label} (h : (label, t) ∈ s.exits)
    (h' : (label, t') ∈ s.exits) : t = t' :=
  (Prod.mk.inj (List.inj_on_of_nodup_map s.nodup_exits h h' rfl)).2

theorem not_mem_exits {s t : Spot} {label : Label} (h : label = "semicolon" ∨ label = "let") :
    (label, t) ∉ s.exits := by
  rcases h with rfl | rfl <;> cases s <;> simp [exits]

/-- The name of the spot in the expression that begins in `start` and whose other names begin with
`stem`. -/
def name (stem start : StateName) : Spot → StateName
  | entry => start
  | number => stem ++ "number"
  | quoted => stem ++ "quoted"
  | identifier => stem ++ "identifier"
  | operator => stem ++ "operator"
  | parenOpen => stem ++ "paren-open"

/-- The paths from the spot; the last is the one that ends the expression. -/
def paths (stem start : StateName) (via : Label) (target : StateName) (s : Spot) :
    List Declaration :=
  s.exits.map (fun e ↦ .path (s.name stem start) e.1 (e.2.name stem start)) ++
    if s.closes then [.path (s.name stem start) via target] else []

end Spot

section Expression

variable {stem entry : StateName} {via : Label} {target : StateName}

theorem expression_eq :
    expression stem entry via target =
      Spot.all.flatMap (Spot.paths stem entry via target) ++
        [node "number" (Spot.number.name stem entry), node "string" (Spot.quoted.name stem entry),
          node "identifier" (Spot.identifier.name stem entry),
          node "operator" (Spot.operator.name stem entry)] := rfl

/-- **The paths of an expression**, whatever its names are. -/
theorem path_mem_expression_iff {source : StateName} {label : Label} {next : StateName} :
    .path source label next ∈ expression stem entry via target ↔
      ∃ s : Spot, s.name stem entry = source ∧
        ((∃ s', (label, s') ∈ s.exits ∧ s'.name stem entry = next) ∨
          s.closes = true ∧ label = via ∧ next = target) := by
  rw [expression_eq, List.mem_append, or_iff_left (by simp [node]), List.mem_flatMap]
  simp only [Spot.mem_all, true_and, Spot.paths, List.mem_append, List.mem_map, Prod.exists,
    Declaration.path.injEq]
  refine exists_congr fun s ↦ ⟨?_, ?_⟩
  · rintro (⟨_, s', hexit, rfl, rfl, rfl⟩ | hclose)
    · exact ⟨rfl, Or.inl ⟨s', hexit, rfl⟩⟩
    · split at hclose
      · rename_i hcloses
        obtain ⟨rfl, rfl, rfl⟩ := Declaration.path.inj (List.mem_singleton.1 hclose)
        exact ⟨rfl, Or.inr ⟨hcloses, rfl, rfl⟩⟩
      · cases hclose
  · rintro ⟨rfl, ⟨s', hexit, rfl⟩ | ⟨hclose, rfl, rfl⟩⟩
    · exact Or.inl ⟨_, s', hexit, rfl, rfl, rfl⟩
    · simp [hclose]

end Expression

/-! ## The grammar -/

/-- A part of the grammar in which expressions stand. -/
inductive Part where
  /-- Where a statement is an expression. -/
  | statement
  /-- Behind the equals sign of a `let`. -/
  | binding
deriving DecidableEq

namespace Part

/-- Both parts. -/
def all : List Part := [statement, binding]

theorem mem_all (part : Part) : part ∈ all := by cases part <;> decide

/-- How the names of the part begin. -/
def stem : Part → StateName
  | statement => "expr-"
  | binding => "let-expr-"

/-- The name of the state in which expressions of the part begin. -/
def entry : Part → StateName
  | statement => "start"
  | binding => "let-equals"

end Part

/-- A state of the grammar. -/
inductive Place where
  /-- Behind the word `let`. -/
  | keyword
  /-- Behind the name that a `let` gives. -/
  | name
  /-- Behind the type that a `let` gives. -/
  | type
  /-- In an expression. -/
  | within (part : Part) (spot : Spot)
deriving DecidableEq

namespace Place

/-- Where statements begin. -/
def start : Place := within .statement .entry

/-- The name of the state. -/
def stateName : Place → StateName
  | keyword => "let"
  | name => "let-identifier"
  | type => "let-type-identifier"
  | within part spot => spot.name part.stem part.entry

/-- The declaration that the label leads from place to place. -/
def path (p : Place) (label : Label) (q : Place) : Declaration :=
  .path p.stateName label q.stateName

/-- All places. -/
def all : List Place :=
  [keyword, name, type] ++ Spot.all.map (within .statement) ++ Spot.all.map (within .binding)

/-- Places are told apart by their names. -/
theorem find?_all (p : Place) : all.find? (·.stateName == p.stateName) = some p := by
  cases p with
  | keyword | name | type => rfl
  | within part spot => cases part <;> cases spot <;> rfl

theorem stateName_injective {p q : Place} (h : p.stateName = q.stateName) : p = q := by
  have hfind := find?_all p
  rw [h, find?_all q] at hfind
  exact (Option.some.inj hfind).symm

end Place

/-- The label leads from place to place. -/
inductive Leads : Place → Label → Place → Prop
  /-- A statement may be empty. -/
  | empty : Leads .start "semicolon" .start
  /-- A statement may begin with the word `let`. -/
  | keyword : Leads .start "let" .keyword
  /-- The word is followed by a name. -/
  | name : Leads .keyword "identifier" .name
  /-- The name is followed by a type. -/
  | type : Leads .name "identifier" .type
  /-- The type is followed by an equals sign. -/
  | equals : Leads .type "equals" (.within .binding .entry)
  /-- An expression goes on. -/
  | inside (part : Part) {s s' : Spot} {label : Label} (h : (label, s') ∈ s.exits) :
      Leads (.within part s) label (.within part s')
  /-- An expression ends the statement. -/
  | close (part : Part) {s : Spot} (h : s.closes = true) :
      Leads (.within part s) "semicolon" .start

/-- The paths outside of expressions. -/
def frame : List Declaration :=
  [Place.start.path "semicolon" .start,
    Place.start.path "let" .keyword,
    Place.keyword.path "identifier" .name,
    Place.name.path "identifier" .type,
    Place.type.path "equals" (.within .binding .entry)]

theorem declarations_eq :
    declarations =
      frame ++ Part.all.flatMap (fun part ↦ expression part.stem part.entry "semicolon" "start") ++
        [node "let" "let", node "identifier" "let-identifier", node "type" "let-type-identifier",
          node "end-statement" "start", .accept "start"] := rfl

/-- **The paths of the grammar** are the transitions between its places. -/
theorem path_mem_declarations_iff {source : StateName} {label : Label} {next : StateName} :
    .path source label next ∈ declarations ↔
      ∃ p q, Leads p label q ∧ p.stateName = source ∧ q.stateName = next := by
  rw [declarations_eq, List.mem_append, or_iff_left (by simp [node]), List.mem_append,
    List.mem_flatMap]
  constructor
  · rintro (h | ⟨part, -, h⟩)
    · simp only [frame, Place.path, List.mem_cons, Declaration.path.injEq, List.not_mem_nil,
        or_false] at h
      obtain ⟨rfl, rfl, rfl⟩ | ⟨rfl, rfl, rfl⟩ | ⟨rfl, rfl, rfl⟩ | ⟨rfl, rfl, rfl⟩ |
        ⟨rfl, rfl, rfl⟩ := h
      · exact ⟨_, _, .empty, rfl, rfl⟩
      · exact ⟨_, _, .keyword, rfl, rfl⟩
      · exact ⟨_, _, .name, rfl, rfl⟩
      · exact ⟨_, _, .type, rfl, rfl⟩
      · exact ⟨_, _, .equals, rfl, rfl⟩
    · obtain ⟨s, rfl, ⟨s', hexit, rfl⟩ | ⟨hcloses, rfl, rfl⟩⟩ := path_mem_expression_iff.1 h
      · exact ⟨_, _, .inside part hexit, rfl, rfl⟩
      · exact ⟨_, _, .close part hcloses, rfl, rfl⟩
  · rintro ⟨p, q, hleads, rfl, rfl⟩
    cases hleads with
    | empty | keyword | name | type | equals => exact Or.inl (by simp [frame, Place.path])
    | inside part hexit =>
      exact Or.inr ⟨part, part.mem_all,
        path_mem_expression_iff.2 ⟨_, rfl, Or.inl ⟨_, hexit, rfl⟩⟩⟩
    | close part hcloses =>
      exact Or.inr ⟨part, part.mem_all,
        path_mem_expression_iff.2 ⟨_, rfl, Or.inr ⟨hcloses, rfl, rfl⟩⟩⟩

/-- The ways out of an expression's spot. -/
theorem Leads.within_cases {part : Part} {s : Spot} {label : Label} {q : Place}
    (h : Leads (.within part s) label q) :
    (∃ s', (label, s') ∈ s.exits ∧ q = .within part s') ∨ label = "semicolon" ∧ q = .start ∨
      label = "let" ∧ q = .keyword := by
  cases h with
  | empty => exact Or.inr (Or.inl ⟨rfl, rfl⟩)
  | keyword => exact Or.inr (Or.inr ⟨rfl, rfl⟩)
  | inside part hexit => exact Or.inl ⟨_, hexit, rfl⟩
  | close part hcloses => exact Or.inr (Or.inl ⟨rfl, rfl⟩)

/-- A label leads from a place to one place at most. -/
theorem Leads.eq {p q q' : Place} {label : Label} (h : Leads p label q) (h' : Leads p label q') :
    q = q' := by
  cases p with
  | keyword | name | type =>
    cases h
    cases h'
    rfl
  | within part s =>
    obtain ⟨t, ht, rfl⟩ | ⟨hlabel, rfl⟩ | ⟨hlabel, rfl⟩ := h.within_cases
    · obtain ⟨t', ht', rfl⟩ | ⟨hlabel', -⟩ | ⟨hlabel', -⟩ := h'.within_cases
      · rw [Spot.eq_of_mem_exits ht ht']
      · exact absurd ht (Spot.not_mem_exits (Or.inl hlabel'))
      · exact absurd ht (Spot.not_mem_exits (Or.inr hlabel'))
    · obtain ⟨t', ht', rfl⟩ | ⟨-, rfl⟩ | ⟨hlabel', rfl⟩ := h'.within_cases
      · exact absurd ht' (Spot.not_mem_exits (Or.inl hlabel))
      · rfl
      · exact absurd (hlabel.symm.trans hlabel') (by decide)
    · obtain ⟨t', ht', rfl⟩ | ⟨hlabel', rfl⟩ | ⟨-, rfl⟩ := h'.within_cases
      · exact absurd ht' (Spot.not_mem_exits (Or.inr hlabel))
      · exact absurd (hlabel.symm.trans hlabel') (by decide)
      · rfl

theorem Place.exists_leads (p : Place) : ∃ label q, Leads p label q := by
  cases p with
  | keyword => exact ⟨_, _, .name⟩
  | name => exact ⟨_, _, .type⟩
  | type => exact ⟨_, _, .equals⟩
  | within part s =>
    obtain ⟨e, he⟩ := List.exists_mem_of_ne_nil s.exits (by cases s <;> simp [Spot.exits])
    exact ⟨_, _, .inside part he⟩

theorem unanimous_declarations : Declaration.Unanimous declarations := by
  intro source label next next' h h'
  obtain ⟨p, q, hleads, rfl, rfl⟩ := path_mem_declarations_iff.1 h
  obtain ⟨p', q', hleads', hname, rfl⟩ := path_mem_declarations_iff.1 h'
  obtain rfl := Place.stateName_injective hname
  rw [hleads.eq hleads']

/-- **The transitions of the graph** are those between the places. -/
theorem target?_stateName_iff {p : Place} {label : Label} {target : StateName} :
    builder.graph.target? p.stateName label = some target ↔
      ∃ q, Leads p label q ∧ q.stateName = target := by
  rw [builder, Builder.target?_declareAll_iff]
  constructor
  · intro h
    obtain ⟨p', q, hleads, hname, rfl⟩ := path_mem_declarations_iff.1 h.mem
    obtain rfl := Place.stateName_injective hname
    exact ⟨q, hleads, rfl⟩
  · rintro ⟨q, hleads, rfl⟩
    exact Declaration.unanimous_iff_latest.1 unanimous_declarations _ _ _
      (path_mem_declarations_iff.2 ⟨p, q, hleads, rfl, rfl⟩)

/-- **The states of the graph** are the places. -/
theorem contains_iff {state : StateName} :
    builder.graph.contains state = true ↔ ∃ p : Place, p.stateName = state := by
  rw [builder, (Builder.describes_declareAll Config.standard declarations).known]
  constructor
  · rintro ⟨d, hmem, hcreates⟩
    cases d with
    | path source label target =>
      obtain ⟨p, q, -, rfl, rfl⟩ := path_mem_declarations_iff.1 hmem
      rcases hcreates with rfl | rfl
      · exact ⟨p, rfl⟩
      · exact ⟨q, rfl⟩
    | onEntry | accept => cases hcreates
  · rintro ⟨p, rfl⟩
    obtain ⟨label, q, hleads⟩ := p.exists_leads
    exact ⟨_, path_mem_declarations_iff.2 ⟨p, q, hleads, rfl, rfl⟩, Or.inl rfl⟩

/-- A run may finish where statements begin, and nowhere else. -/
theorem accepting_iff {state : StateName} :
    (Automaton.ofDeclarations declarations).Accepting state ↔ state = "start" := by
  constructor
  · rintro ⟨before, after, hsplit, -⟩
    have hmem : .accept state ∈ declarations := by simp [hsplit]
    simpa [declarations, expression, node] using hmem
  · rintro rfl
    exact ⟨declarations.dropLast, [], rfl, .path "start" "semicolon" "start", .head _, Or.inl rfl⟩

end StatementGrammar

end LabelAutomaton
