import LabelAutomaton.Builder
import LabelAutomaton.Description

/-!
# A grammar of statements

An example: a machine reads tokens, whose kinds are its labels, and the callbacks of the states
make syntax nodes of them. A statement is an expression or a `let` with an expression, and ends
with a semicolon. Expressions have the same states in both places, under different names
(`expression`); the state `start` closes each statement.

`nodes` lists the nodes that a run makes: one for every callback called, of the kind that is the
callback's tag and with the text of the token that was read.
-/

set_option autoImplicit false

namespace LabelAutomaton

namespace StatementGrammar

/-- A token. -/
structure Token where
  /-- What kind of token it is. -/
  kind : Label
  /-- How it is spelled. -/
  text : String
deriving DecidableEq

/-! ## The grammar -/

/-- A declaration that a node of this kind is made whenever the state is entered. -/
def node (kind : String) (state : StateName) : Declaration :=
  .onEntry state (.succeeding kind)

/-- The states of an expression that begins in `entry`, their names beginning with `stem`. The
token `via` ends the expression and leads to `target`. -/
def expression (stem entry : StateName) (via : Label) (target : StateName) : List Declaration :=
  let number := stem ++ "number"
  let quoted := stem ++ "quoted"
  let identifier := stem ++ "identifier"
  let operator := stem ++ "operator"
  let parenOpen := stem ++ "paren-open"
  [.path entry "number" number,
    .path entry "quoted" quoted,
    .path entry "identifier" identifier,
    .path identifier "operator" operator,
    .path identifier "paren-open" parenOpen,
    .path identifier via target,
    .path parenOpen "number" number,
    .path parenOpen "quoted" quoted,
    .path operator "number" number,
    .path operator "identifier" identifier,
    .path number "operator" operator,
    .path number "paren-close" entry,
    .path number via target,
    .path quoted "paren-close" entry,
    .path quoted via target,
    node "number" number,
    node "string" quoted,
    node "identifier" identifier,
    node "operator" operator]

/-- Everything that the grammar declares. -/
def declarations : List Declaration :=
  [.path "start" "semicolon" "start",
    .path "start" "let" "let",
    .path "let" "identifier" "let-identifier",
    .path "let-identifier" "identifier" "let-type-identifier",
    .path "let-type-identifier" "equals" "let-equals"]
    ++ expression "expr-" "start" "semicolon" "start"
    ++ expression "let-expr-" "let-equals" "semicolon" "start"
    ++ [node "let" "let",
      node "identifier" "let-identifier",
      node "type" "let-type-identifier",
      node "end-statement" "start",
      .accept "start"]

/-- The grammar. -/
def builder : Builder := (Builder.empty Config.standard).declareAll declarations

/-! ## Runs -/

/-- The machine before the first token. -/
def initial : Machine := Machine.start builder.config "start"

/-- The outcome of each token. A token that fails is passed over. -/
def outcomes (tokens : List Token) : List Outcome :=
  initial.run builder.graph default [] (tokens.map fun t ↦ .transition t.kind)

/-- The machine after all tokens. -/
def final (tokens : List Token) : Machine := initial.after (outcomes tokens)

/-- The nodes made of one token. -/
def nodesOf (token : Token) (outcome : Outcome) : List String :=
  outcome.invocations.map fun call ↦ call.tag ++ "(" ++ token.text ++ ")"

/-- The nodes made of all tokens. -/
def nodes (tokens : List Token) : List String :=
  (tokens.zip (outcomes tokens)).flatMap fun (token, outcome) ↦ nodesOf token outcome

/-- What comes of finishing after all tokens. -/
def finish (tokens : List Token) : Except MachineError Unit :=
  ((final tokens).finish builder.graph).result

/-! ## A report -/

/-- The statements `let total int = 1 + count; println("done");`. -/
def sample : List Token :=
  [⟨"let", "let"⟩, ⟨"identifier", "total"⟩, ⟨"identifier", "int"⟩, ⟨"equals", "="⟩,
    ⟨"number", "1"⟩, ⟨"operator", "+"⟩, ⟨"identifier", "count"⟩, ⟨"semicolon", ";"⟩,
    ⟨"identifier", "println"⟩, ⟨"paren-open", "("⟩, ⟨"quoted", "done"⟩, ⟨"paren-close", ")"⟩,
    ⟨"semicolon", ";"⟩]

/-- Whether the tokens were accepted. -/
def verdict (tokens : List Token) : String :=
  match finish tokens with
  | .ok () => "Input accepted"
  | .error (.unacceptableFinish state) => "Input incomplete, stopped in '" ++ state ++ "'"
  | .error e => e.message

/-- The lines of a report on the grammar and on the tokens. -/
def reportLines (tokens : List Token) : List String :=
  ["=== Statement Grammar Example ===",
    "",
    "Grammar has " ++ builder.graph.size.repr ++ " states and "
      ++ builder.graph.describe.transitionCount.repr ++ " transitions",
    verdict tokens,
    "",
    "Nodes:"]
    ++ (nodes tokens).map ("  " ++ ·)
    ++ ["", "=== Example Complete ==="]

/-- The report on the sample. -/
def report : String := String.join ((reportLines sample).map (· ++ "\n"))

end StatementGrammar

end LabelAutomaton
