/-!
# Operators of filters

The operators that a filter gives a meaning to.  Every other operator of SQL is carried along as
text.
-/

namespace Funnel.Sql

inductive UnaryOp
  | not
  | minus
  | plus
deriving DecidableEq, Repr

inductive BinaryOp
  | eq
  | notEq
  | lt
  | ltEq
  | gt
  | gtEq
  | plus
  | minus
  | multiply
  | divide
  | modulo
  | concat
deriving DecidableEq, Repr

inductive LogicalOp
  | and
  | or
deriving DecidableEq, Repr

/-- What is written before the operand. -/
def UnaryOp.text : UnaryOp → String
  | not => "NOT "
  | minus => "-"
  | plus => "+"

def BinaryOp.text : BinaryOp → String
  | eq => "="
  | notEq => "<>"
  | lt => "<"
  | ltEq => "<="
  | gt => ">"
  | gtEq => ">="
  | plus => "+"
  | minus => "-"
  | multiply => "*"
  | divide => "/"
  | modulo => "%"
  | concat => "||"

def LogicalOp.text : LogicalOp → String
  | and => "AND"
  | or => "OR"

/-- The operators whose result is a truth value. -/
def BinaryOp.isComparison : BinaryOp → Bool
  | eq | notEq | lt | ltEq | gt | gtEq => true
  | _ => false

end Funnel.Sql
