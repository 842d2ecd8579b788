import Funnel.Sql.Grammar.Operand

/-!
# Operators

What may stand behind an operand, and how tightly it binds.  Levels grow from `OR` to casts; an
operator is read while its level is above the level of the operator before it, so operators of
one level group to the left.
-/

namespace Funnel.Sql.Grammar

open Rule

/-! ## Operators between two operands -/

/-- An operator between two operands.  Those that a filter does not know are kept as text. -/
inductive Operator
  | binary (op : BinaryOp)
  | logical (op : LogicalOp)
  | foreign (text : String)
deriving DecidableEq, Repr

namespace Operator

def text : Operator → String
  | binary op => op.text
  | logical op => op.text
  | foreign s => s

def isComparison : Operator → Bool
  | binary op => op.isComparison
  | _ => false

def apply (op : Operator) (left right : Expr) : Expr :=
  match op with
  | binary op => .binary op left right
  | logical op => .logical op left right
  | foreign s => form [.expr left, .text (" " ++ s ++ " "), .expr right]

/-- Signs between two operands that mean nothing to a filter. -/
def foreignSymbols : List Symbol :=
  [.spaceship, .pipe, .caret, .ampersand, .intDiv, .shiftLeft, .shiftRight, .overlap, .caretAt,
   .tilde, .tildeStar, .notTilde, .notTildeStar, .doubleTilde, .doubleTildeStar, .notDoubleTilde,
   .notDoubleTildeStar, .arrow, .longArrow, .hashArrow, .hashLongArrow, .atArrow, .arrowAt,
   .hashMinus, .atQuestion, .atAt]

/-- The operator that a sign stands for. -/
def ofSymbol? : Symbol → Option Operator
  | .eq | .doubleEq => some (binary .eq)
  | .notEq => some (binary .notEq)
  | .lt => some (binary .lt)
  | .ltEq => some (binary .ltEq)
  | .gt => some (binary .gt)
  | .gtEq => some (binary .gtEq)
  | .plus => some (binary .plus)
  | .minus => some (binary .minus)
  | .times => some (binary .multiply)
  | .div => some (binary .divide)
  | .mod => some (binary .modulo)
  | .concat => some (binary .concat)
  | s => if foreignSymbols.contains s then some (foreign s.text) else none

/-- The operator that a word stands for. -/
def ofKeyword? : Keyword → Option Operator
  | "AND" => some (logical .and)
  | "OR" => some (logical .or)
  | "XOR" => some (foreign "XOR")
  | _ => none

end Operator

/-! ## Levels -/

/-- The level of a sign; a sign that is no operator has level 0. -/
def symbolLevel : Symbol → Nat
  | .eq | .lt | .ltEq | .notEq | .gt | .gtEq | .doubleEq | .tilde | .tildeStar | .notTilde
  | .notTildeStar | .doubleTilde | .doubleTildeStar | .notDoubleTilde | .notDoubleTildeStar
  | .spaceship => 20
  | .pipe => 21
  | .caret | .sharp | .shiftRight | .shiftLeft => 22
  | .ampersand => 23
  | .plus | .minus => 30
  | .times | .div | .intDiv | .mod | .concat => 40
  | .doubleColon | .bang | .lbracket | .overlap | .caretAt => 50
  | .arrow | .longArrow | .hashArrow | .hashLongArrow | .atArrow | .arrowAt | .hashMinus
  | .atQuestion | .atAt => 16
  | _ => 0

/-- The level of a keyword, given the two keywords behind it. -/
def keywordLevel (k : Keyword) (second third : Option Keyword) : Nat :=
  match k with
  | "OR" => 5
  | "AND" => 10
  | "XOR" => 24
  | "AT" => if second == some "TIME" && third == some "ZONE" then 41 else 0
  | "NOT" =>
    match second with
    | some "IN" | some "BETWEEN" => 20
    | some "LIKE" | some "ILIKE" | some "RLIKE" | some "REGEXP" | some "SIMILAR" => 19
    | _ => 0
  | "IS" => 17
  | "IN" | "BETWEEN" | "OPERATOR" => 20
  | "LIKE" | "ILIKE" | "RLIKE" | "REGEXP" | "SIMILAR" => 19
  | "DIV" => 40
  | _ => 0

/-- The level of what comes next. -/
def nextLevel : Rule Nat := do
  match ← peek with
  | some (.symbol s) => return symbolLevel s
  | some (.word _ (some k)) =>
    return keywordLevel k ((← peekAt 1).bind Token.key?) ((← peekAt 2).bind Token.key?)
  | _ => return 0

/-! ## What follows an operand -/

/-- The values that an operator compares with any or all of: a query brings its own
parentheses. -/
def quantified (front : Phrase) : Expr → Expr
  | .subquery wording operands => form [front, .expr (.subquery wording operands)]
  | right => form [front, .text "(", .expr right, .text ")"]

/-- The right side of an operator, or the values that it compares with all or any of. -/
def rightSide (n : Nested) (left : Expr) (op : Operator) (level : Nat) (place : Option Nat) :
    Rule Expr := do
  match ← oneOfKeys? ["ANY", "ALL", "SOME"] with
  | none => return op.apply left (← n.expr level)
  | some k =>
    if !(← nextIsSymbol .lparen) then expected (.symbol .lparen)
    let isQuery := match (← peekAt 1).bind Token.key? with
      | some "SELECT" | some "WITH" => true
      | _ => false
    let right ← if isQuery then n.expr level else parenthesized (n.expr level)
    if !op.isComparison then fail (.notAComparison op.text (place.getD 0))
    return quantified (.concat [.expr left, .text (" " ++ op.text ++ " " ++ k)]) right

/-- The tests behind `IS`, in the words of their text. -/
def truthTests : List (List Keyword) :=
  [["TRUE"], ["NOT", "TRUE"], ["FALSE"], ["NOT", "FALSE"], ["UNKNOWN"], ["NOT", "UNKNOWN"]]

/-- The first list of keywords that comes next. -/
def firstOf : List (List Keyword) → Rule (Option (List Keyword))
  | [] => return none
  | ks :: rest => do if ← keys? ks then return some ks else firstOf rest

/-- What follows `IS`. -/
def isExpression (n : Nested) (left : Expr) : Rule Expr := do
  if ← key? "NULL" then return .isNull left false
  if ← keys? ["NOT", "NULL"] then return .isNull left true
  match ← firstOf truthTests with
  | some ks => return form [.expr left, .text (" IS " ++ " ".intercalate ks)]
  | none =>
    if ← keys? ["DISTINCT", "FROM"] then
      return form [.expr left, .text " IS DISTINCT FROM ", ← n.phrase]
    if ← keys? ["NOT", "DISTINCT", "FROM"] then
      return form [.expr left, .text " IS NOT DISTINCT FROM ", ← n.phrase]
    expected .truthTest

/-- What follows `IN`: an array, a query or a list. -/
def inExpression (n : Nested) (left : Expr) (negated : Bool) : Rule Expr := do
  if ← key? "UNNEST" then
    let array ← parenthesized n.phrase
    return form [.expr left, .text (" " ++ negation negated ++ "IN UNNEST("), array, .text ")"]
  symbol .lparen
  let e ← (do
    if ← queryAhead then
      let q ← n.query
      return form [.expr left, .text (" " ++ negation negated ++ "IN ("), q, .text ")"]
    match ← n.expressions with
    | first :: others => return .inList left first others negated
    | [] => expected .expression)
  symbol .rparen
  return e

/-- What follows `BETWEEN`. -/
def betweenExpression (n : Nested) (left : Expr) (negated : Bool) : Rule Expr := do
  let low ← n.expr 20
  key "AND"
  return .between left low (← n.expr 20) negated

/-- The escape character of a pattern. -/
def escapeClause : Rule (Option String) := do
  if ← key? "ESCAPE" then return some (← literalString) else return none

/-- A pattern behind the words in front of it, with its escape character. -/
def patternPhrase (left : Expr) (words : String) (pattern : Expr) (escape : Option String) :
    Phrase :=
  let escapeText := match escape with
    | some c => " ESCAPE '" ++ c ++ "'"
    | none => ""
  .concat [.expr left, .text (" " ++ words), .expr pattern, .text escapeText]

/-- What follows `LIKE` and `ILIKE`.  A filter keeps a pattern without an escape character, and
drops the word `ANY` in front of it.  With an escape character, no space separates that word from
a pattern that ignores case. -/
def likeExpression (n : Nested) (left : Expr) (negated ignoreCase : Bool) : Rule Expr := do
  let any ← key? "ANY"
  let pattern ← n.expr 19
  let escape ← escapeClause
  let anyText := if !any then "" else if ignoreCase && escape.isSome then "ANY" else "ANY "
  let words := negation negated ++ likeWord ignoreCase ++ " " ++ anyText
  let written := patternPhrase left words pattern escape
  if escape.isSome then return written.toExpr
  let kept := Expr.like left pattern negated ignoreCase
  return if any then written.keeping kept else kept

/-- What follows an operand with an operator of words, whose first word has not been taken.
`REGEXP` takes an `RLIKE` behind it and drops it. -/
def wordInfix (n : Nested) (left : Expr) : Rule Expr := do
  let negated ← key? "NOT"
  let front := negation negated
  match ← oneOfKeys? ["REGEXP", "RLIKE", "IN", "BETWEEN", "LIKE", "ILIKE"] with
  | some "IN" => inExpression n left negated
  | some "BETWEEN" => betweenExpression n left negated
  | some "LIKE" => likeExpression n left negated false
  | some "ILIKE" => likeExpression n left negated true
  | some k =>
    if k == "REGEXP" then discard (key? "RLIKE")
    let pattern ← n.expr 19
    return (patternPhrase left (front ++ k ++ " ") pattern none).toExpr
  | none =>
    if ← keys? ["SIMILAR", "TO"] then
      let pattern ← n.expr 19
      let escape ← escapeClause
      return (patternPhrase left (front ++ "SIMILAR TO ") pattern escape).toExpr
    expected .notInfix

/-- The name of an operator in parentheses, up to the next sign that is no period. -/
def operatorName : Nat → Rule (List String)
  | 0 => return []
  | fuel + 1 => do
    let part := match ← peek with
      | some t => t.text
      | none => "EOF"
    skip
    if ← symbol? .period then return part :: (← operatorName fuel) else return [part]

/-- The subscript of an array: an index, or a range with an optional step. -/
def subscriptExpression (n : Nested) (left : Expr) : Rule Expr := do
  let wrap (inside : List Phrase) : Expr :=
    form ([.expr left, .text "["] ++ inside ++ [.text "]"])
  let low ← (do if ← symbol? .colon then return none else return some (← n.phrase))
  if ← symbol? .rbracket then
    return wrap (match low with
      | some p => [p]
      | none => [.text ":"])
  if low.isSome then symbol .colon
  if ← symbol? .rbracket then return wrap [.optional low, .text ":"]
  let high ← n.phrase
  if ← symbol? .rbracket then return wrap [.optional low, .text ":", high]
  symbol .colon
  if ← symbol? .rbracket then return wrap [.optional low, .text ":", high]
  let step ← n.phrase
  symbol .rbracket
  return wrap [.optional low, .text ":", high, .text ":", step]

/-- What follows an operand, given the level of its operator. -/
def infixExpression (n : Nested) (left : Expr) (level : Nat) : Rule Expr := do
  let place ← here
  match ← peek with
  | some (.symbol s) =>
    skip
    match Operator.ofSymbol? s with
    | some op => rightSide n left op level place
    | none =>
      match s with
      | .doubleColon => return .cast .doubleColon left (← dataType n)
      | .lbracket => subscriptExpression n left
      | .bang => fail (.notAnOperator "ExclamationMark" (place.getD 0))
      | _ => fail (.notAnOperator "Sharp" (place.getD 0))
  | some (.word name (some k)) =>
    match Operator.ofKeyword? k with
    | some op => skip; rightSide n left op level place
    | none =>
      match k with
      | "IS" => skip; isExpression n left
      | "AT" =>
        skip
        keys ["TIME", "ZONE"]
        let zone ← n.expr level
        return form [.expr left, .text " AT TIME ZONE ", .expr zone]
      | "OPERATOR" =>
        skip
        let parts ← parenthesized do operatorName (← size)
        rightSide n left (.foreign ("OPERATOR(" ++ ".".intercalate parts ++ ")")) level place
      | "DIV" =>
        fail (.notAnOperator
          ("Word(Word \x7b value: \x22" ++ name.text ++
            "\x22, quote_style: None, keyword: DIV \x7d)") (place.getD 0))
      | _ => wordInfix n left
  | _ => expected .expression

/-! ## Expressions -/

/-- Reads operators while their level is above `level`.  Each of them takes a token, so the tokens
that are left bound their number. -/
def climb (n : Nested) (level : Nat) : Nat → Expr → Rule Expr
  | 0, left => return left
  | fuel + 1, left => do
    let next ← nextLevel
    if next ≤ level then return left
    else climb n level fuel (← infixExpression n left next)

/-- An operand and the operators behind it that bind more tightly than a level. -/
def expressionAt (n : Nested) (level : Nat) : Rule Expr := do
  climb n level (← size) (← n.operand)

/-- The rules for expressions and queries that may be nested `depth` deep.  Every expression
within another one, and every query, is one level deeper.  An expression within one on the rows of
a hierarchy is on them too. -/
def nested (inHierarchy : Bool) : Nat → Nested
  | 0 => .of inHierarchy (fun _ ↦ fail .tooDeep) (fail .tooDeep) (fail .tooDeep)
  | depth + 1 =>
    .of inHierarchy (fun level ts ↦ expressionAt (nested inHierarchy depth) level ts)
      (fun ts ↦ expressionAt (nested true depth) 0 ts)
      (fun ts ↦ query (nested inHierarchy depth) ts)

/-- The greatest depth of nested expressions. -/
def maxDepth : Nat := 50

/-- An expression. -/
def expression : Rule Expr := (nested false maxDepth).expression

end Funnel.Sql.Grammar
