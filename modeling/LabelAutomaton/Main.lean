import LabelAutomaton.StatementGrammar

/-!
# The example as a program

The program reads nothing: it prints the report that the grammar of statements makes of its sample
(`StatementGrammar.report`).
-/

set_option autoImplicit false

/-- Print the report on the grammar of statements. -/
def main : IO Unit := IO.print LabelAutomaton.StatementGrammar.report
