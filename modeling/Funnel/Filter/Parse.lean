import Funnel.Filter.Basic
import Funnel.Sql.Grammar.Infix
import Funnel.Sql.Lexer

/-!
# Reading filters

A filter text is an expression of SQL and nothing behind it.  `Filter.ofExpr` turns the expression
into a tree: parentheses go, and forms without a node of their own become `unsupported` at the
smallest expression that is not understood.
-/

namespace Funnel

namespace Filter

mutual

/-- The tree of an expression.  It never fails. -/
def ofExpr : Sql.Expr → Filter
  | .column parts => .column (.ofParts parts)
  | .literal (.number n _) => .value (.number n.text)
  | .literal (.string .plain text) => .value (.string text)
  | .literal (.boolean b) => .value (.boolean b)
  | .literal .null => .value .null
  | .literal v => .unsupported (.literal v)
  | .nested e => ofExpr e
  | .unary op e => .unary op (ofExpr e)
  | .binary op left right => .binary op (ofExpr left) (ofExpr right)
  | .logical op left right => .logical op (ofExpr left) (ofExpr right)
  | .isNull e negated => .isNull (ofExpr e) negated
  | .inList e first others negated =>
    .inList (ofExpr e) (ofExpr first :: ofExprs others) negated
  | .between e low high negated => .between (ofExpr e) (ofExpr low) (ofExpr high) negated
  | .like e pattern negated ignoreCase => .like (ofExpr e) (ofExpr pattern) negated ignoreCase
  | .cast _ e type => .cast (ofExpr e) type.sql
  | .call name args => .call (Sql.Ident.dottedSql name) (ofExprs args)
  | .abridged _ _ kept => ofExpr kept
  | .subquery wording operands => .unsupported (.subquery wording operands)
  | .other wording operands => .unsupported (.other wording operands)

def ofExprs : List Sql.Expr → List Filter
  | [] => []
  | e :: es => ofExpr e :: ofExprs es

end

end Filter

/-- Why a text is not a filter. -/
inductive FilterError
  /-- The text does not begin with an expression. -/
  | malformed (cause : Sql.SyntaxError) (source : String)
  /-- An expression ends before this token. -/
  | trailing (token : Sql.Token)
deriving DecidableEq, Repr

def FilterError.text : FilterError → String
  | malformed cause source => cause.message source
  | trailing token => "unexpected trailing input at " ++ token.text

/-- The expression that a text is. -/
def parseExpr (source : String) : Except FilterError Sql.Expr := do
  let run : Except Sql.SyntaxError (Sql.Expr × List Sql.Lexeme) := do
    Sql.Grammar.expression (← Sql.Lexer.lex source.toList)
  match run with
  | .error e => throw (.malformed e source)
  | .ok (e, []) => return e
  | .ok (_, next :: _) => throw (.trailing next.token)

/-- The filter that a text is. -/
def Filter.parse (source : String) : Except FilterError Filter :=
  return ofExpr (← parseExpr source)

end Funnel
