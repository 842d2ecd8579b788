import Funnel.Sql.Grammar.Name

/-!
# What is nested

Types, calls and queries hold expressions, and expressions hold all of these.  The rules for the
parts of an expression therefore take the rules for what is nested in them as an argument.
-/

namespace Funnel.Sql.Grammar

open Rule

/-- The rules for what is nested in an expression. -/
structure Nested where
  /-- An expression whose operators bind more tightly than a level. -/
  expr : Nat → Rule Expr
  /-- An expression on the rows of a hierarchy, in which `PRIOR` stands before an operand. -/
  hierarchic : Rule Expr
  /-- A query without parentheses around it. -/
  query : Rule Phrase
  /-- An expression without an operator behind it. -/
  operand : Rule Expr
  /-- The expression at hand is on the rows of a hierarchy. -/
  inHierarchy : Bool

namespace Nested

/-- Any expression. -/
def expression (n : Nested) : Rule Expr := n.expr 0

/-- An expression as a phrase. -/
def phrase (n : Nested) : Rule Phrase := do return .expr (← n.expression)

def expressions (n : Nested) : Rule (List Expr) := commaSeparated n.expression

/-- Expressions with commas between them, as a phrase. -/
def list (n : Nested) : Rule Phrase := do return .commas ((← n.expressions).map .expr)

end Nested

end Funnel.Sql.Grammar
