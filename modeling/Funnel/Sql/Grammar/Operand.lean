import Funnel.Sql.Grammar.Form

/-!
# Operands

An expression without an operator behind it.  A word that opens a form is read as that form if it
can be, and as a name otherwise: `case` is a column where no `WHEN` follows.
-/

namespace Funnel.Sql.Grammar

open Rule

/-- A type and a text, which together are a literal of the type.  An interval has a rule of its
own, and the name of a custom type is no type here. -/
def typedLiteral (n : Nested) : Rule Expr := do
  match ← dataType n with
  | .interval => interval n
  | .custom _ _ => fail .customTypeLiteral
  | type =>
    let text ← literalString
    return form [.type type, .text " ", .expr (.literal (.string .plain text))]

/-! ## Names -/

/-- The parts of a name behind its first part and a period. -/
def nameTailIn : Nat → List Ident → Rule (List Ident)
  | 0, parts => return parts
  | fuel + 1, parts => do
    if ← symbol? .period then
      match ← peek with
      | some (.word name _) => skip; nameTailIn fuel (parts ++ [name])
      | some (.string .plain s) => skip; nameTailIn fuel (parts ++ [.quoted .single s])
      | some (.symbol .times) => expected .nameAfterPeriod
      | _ => expected .afterPeriod
    else return parts

/-- A column or a call, behind its first word. -/
def nameExpression (n : Nested) (name : Ident) : Rule Expr := do
  match ← peek with
  | some (.symbol .lparen) | some (.symbol .period) =>
    let parts ← nameTailIn (← size) [name]
    if ← nextIsSymbol .lparen then return (← call n parts).toExpr else return .column parts
  | some (.string style s) =>
    -- A word that begins with an underscore names the character set of a text.
    if name.text.toList.head? == some '_' && (style == .plain || style == .hex) then
      skip
      return form [.text (name.text ++ " "), .expr (.literal (.string style s))]
    else return .column [name]
  | _ => return .column [name]

/-- A form, a column or a call that begins with a word, and whether a collation may follow: none
may where the word opens a form that cannot be read, so that the word is a name after all. -/
def wordExpression (n : Nested) (start : Option Nat) (name : Ident) (k : Option Keyword) :
    Rule (Expr × Bool) := do
  match k with
  | none => return (← nameExpression n name, true)
  | some k =>
    let asForm : Rule (Expr × Bool) := do
      match ← keywordForm n start name k with
      | some e => return (e, true)
      | none => return (← nameExpression n name, true)
    if properKeywords.contains k then asForm
    else orTry asForm (do return (← nameExpression n name, false))

/-! ## Parentheses -/

/-- The field of a row behind a period. -/
def fieldOf (e : Expr) : Rule Expr := fun ts ↦
  match ts with
  | ⟨.symbol .period, _⟩ :: ⟨.word name _, _⟩ :: rest =>
    .ok (form [.expr e, .text ".", .name [name]], rest)
  | ⟨.symbol .period, _⟩ :: rest => .error (.notAField rest.head?)
  | ts => .ok (e, ts)

/-- What stands in parentheses: a query, one expression or several, with a field of it perhaps. -/
def parenthesizedExpression (n : Nested) : Rule Expr := do
  skip
  let e ← (do
    if ← queryAhead then
      let q ← n.query
      return .subquery q.wording q.operands
    match ← n.expressions with
    | [e] => return .nested e
    | es => return form [.text "(", .commas (es.map .expr), .text ")"])
  symbol .rparen
  fieldOf e

/-! ## All operands -/

/-- A sign, whose operand binds more tightly than level 40. -/
def signed (n : Nested) (op : UnaryOp) : Rule Expr := do
  skip
  return .unary op (← n.expr 40)

/-- An operand that begins with a sign, a value or a parenthesis. -/
def plainOperand (n : Nested) : Rule Expr := do
  match ← peek with
  | some (.symbol .lbracket) => skip; arrayExpression n ""
  | some (.symbol .minus) => signed n .minus
  | some (.symbol .plus) => signed n .plus
  | some (.number _ _) | some (.string _ _) | some (.placeholder _) => return .literal (← value)
  | some (.symbol .colon) | some (.symbol .atSign) => return .literal (← value)
  | some (.symbol .lparen) => parenthesizedExpression n
  | some (.symbol .lbrace) => bracesExpression n
  | _ => expected .expression

/-- An operand without a collation, and whether one may follow; none may follow a literal of a
type. -/
def bareOperand (n : Nested) : Rule (Expr × Bool) := do
  match ← attempt (typedLiteral n) with
  | some e => return (e, false)
  | none =>
    let start ← here
    match ← peek with
    | some (.word name k) => skip; wordExpression n start name k
    | _ => return (← plainOperand n, true)

/-- The collation behind an operand, if there is one. -/
def collated (e : Expr) : Rule Expr := do
  match ← afterKey? "COLLATE" dottedName with
  | some name => return form [.expr e, .text " COLLATE ", .name name]
  | none => return e

/-- What may be nested in an operand, given the rules for expressions, for those on the rows of a
hierarchy and for queries.  The value of an interval is an operand again, at most `fuel` times. -/
def nestedIn (inHierarchy : Bool) (expr : Nat → Rule Expr) (hierarchic : Rule Expr)
    (query : Rule Phrase) : Nat → Nested
  | 0 => ⟨expr, hierarchic, query, expected .expression, inHierarchy⟩
  | fuel + 1 =>
    let operand := do
      let (e, open?) ← bareOperand (nestedIn inHierarchy expr hierarchic query fuel)
      if open? then collated e else return e
    ⟨expr, hierarchic, query, operand, inHierarchy⟩

/-- The rules for what is nested.  The value of an interval stands behind a token of its own, so
the tokens that are left bound the depth. -/
def Nested.of (inHierarchy : Bool) (expr : Nat → Rule Expr) (hierarchic : Rule Expr)
    (query : Rule Phrase) : Nested :=
  ⟨expr, hierarchic, query, do
    (nestedIn inHierarchy expr hierarchic query ((← size) + 1)).operand, inHierarchy⟩

end Funnel.Sql.Grammar
