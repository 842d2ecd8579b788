import Funnel.Sql.Grammar.DataType

/-!
# Function calls

Calls with all that may stand in and behind their parentheses.  A filter understands a call with
plain arguments only.  A list of parameters in front of the arguments and a word on nulls behind
them are dropped from such a call; any other addition makes it a form of its own.
-/

namespace Funnel.Sql.Grammar

open Rule

/-! ## Intervals -/

/-- A size of an interval field, with a space before it. -/
def spacedSize : Rule Phrase := do
  if ← symbol? .lparen then
    let n ← literalInteger
    symbol .rparen
    return .text (" " ++ sizeText n)
  else return .empty

/-- The two sizes that seconds may have. -/
def secondsSize : Rule Phrase := do
  if ← symbol? .lparen then
    let n ← literalInteger
    if ← symbol? .comma then
      let m ← literalInteger
      symbol .rparen
      return .text (" (" ++ toString n ++ ", " ++ toString m ++ ")")
    else
      symbol .rparen
      return .text (" " ++ sizeText n)
  else return .empty

/-- The last field of an interval that spans several. -/
def intervalEnd : Rule Phrase := do
  if ← key? "TO" then
    let seconds := (← peekKey) == some "SECOND"
    let field ← dateField
    let size ← if seconds then spacedSize else pure .empty
    return .concat [.text " TO ", field, size]
  else return .empty

/-- An interval behind its keyword: a value, and perhaps its unit. -/
def interval (n : Nested) : Rule Expr := do
  let value ← n.operand
  let unit ← peekKey
  let field ← (do
    if (unit.map intervalUnits.contains).getD false then
      return .concat [.text " ", ← dateField]
    else return .empty)
  let size ← if unit == some "SECOND" then secondsSize else (do
    let size ← spacedSize
    return size ++ (← intervalEnd))
  return (Phrase.concat [.text "INTERVAL ", .expr value, field, size]).toExpr

/-! ## Ordering and windows -/

/-- `WITH FILL` and its bounds, behind the keywords. -/
def fillBounds (n : Nested) : Rule Phrase := do
  let bound (k : Keyword) : Rule Phrase := do
    match ← afterKey? k n.expression with
    | some e => return .concat [.text (" " ++ k ++ " "), .expr e]
    | none => return .empty
  return .concat [.text " WITH FILL", ← bound "FROM", ← bound "TO", ← bound "STEP"]

/-- An expression to order by, with its direction. -/
def orderItem (n : Nested) : Rule Phrase := do
  let e ← n.expression
  let direction ← oneOfKeys? ["ASC", "DESC"]
  let nulls ← (do
    if ← keys? ["NULLS", "FIRST"] then return " NULLS FIRST"
    if ← keys? ["NULLS", "LAST"] then return " NULLS LAST"
    return "")
  let filled ← afterKeys? ["WITH", "FILL"] (fillBounds n)
  let direction := match direction with
    | some k => " " ++ k
    | none => ""
  return .concat [.expr e, .text (direction ++ nulls), .optional filled]

def orderItems (n : Nested) : Rule Phrase := do
  return .commas (← commaSeparated (orderItem n))

/-- One end of a window frame. -/
def frameBound (n : Nested) : Rule Phrase := do
  if ← keys? ["CURRENT", "ROW"] then return .text "CURRENT ROW"
  let rows ← (do
    if ← key? "UNBOUNDED" then return .text "UNBOUNDED"
    match ← peek with
    | some (.string .plain _) => return .expr (← interval n)
    | _ => n.phrase)
  match ← oneOfKeys? ["PRECEDING", "FOLLOWING"] with
  | some k => return .concat [rows, .text (" " ++ k)]
  | none => expected .frameBound

def frame (n : Nested) : Rule Phrase := do
  match ← oneOfKeys? ["ROWS", "RANGE", "GROUPS"] with
  | none => expected .frameUnits
  | some units =>
    if ← key? "BETWEEN" then
      let first ← frameBound n
      key "AND"
      let last ← frameBound n
      return .concat [.text (units ++ " BETWEEN "), first, .text " AND ", last]
    else return .concat [.text (units ++ " "), ← frameBound n]

/-- A window, behind its opening parenthesis and with the closing one. -/
def window (n : Nested) : Rule Phrase := do
  let name ← (do
    match ← peek with
    | some (.word name none) => skip; return [.name [name]]
    | _ => return [])
  let partition ← afterKeys? ["PARTITION", "BY"] n.list
  let order ← afterKeys? ["ORDER", "BY"] (orderItems n)
  let rows ← (do
    if ← symbol? .rparen then return []
    let f ← frame n
    symbol .rparen
    return [f])
  let lead (word : String) (p : Option Phrase) : List Phrase :=
    p.toList.map fun p ↦ .concat [.text word, p]
  return .separated " "
    (name ++ lead "PARTITION BY " partition ++ lead "ORDER BY " order ++ rows)

/-! ## Arguments -/

/-- An argument; one that is an expression by itself is told apart. -/
inductive Argument
  | plain (e : Expr)
  | special (p : Phrase)

namespace Argument

def phrase : Argument → Phrase
  | plain e => .expr e
  | special p => p

def plain? : Argument → Option Expr
  | plain e => some e
  | special _ => none

end Argument

/-- The rest of a dotted name; the name is returned if it ends in `.*`. -/
def wildcardTail : Nat → List Ident → Rule (Option (List Ident))
  | 0, _ => return none
  | n + 1, parts => do
    if ← symbol? .period then
      match ← peek with
      | some (.word name _) => skip; wildcardTail n (parts ++ [name])
      | some (.string .plain s) => skip; wildcardTail n (parts ++ [.quoted .single s])
      | some (.symbol .times) => skip; return some parts
      | _ => expected .afterPeriod
    else return none

/-- `*`, or a name that ends in `.*`. -/
def wildcardAhead : Rule (Option Phrase) := do
  match ← peek, ← peekAt 1 with
  | some (.symbol .times), _ => skip; return some (.text "*")
  | some (.word name _), some (.symbol .period) =>
    skip
    return (← wildcardTail (← size) [name]).map fun parts ↦ .concat [.name parts, .text ".*"]
  | some (.string .plain s), some (.symbol .period) =>
    skip
    return (← wildcardTail (← size) [.quoted .single s]).map fun parts ↦
      .concat [.name parts, .text ".*"]
  | _, _ => return none

/-- A wildcard, or else an expression. -/
def wildcardOr (n : Nested) : Rule Argument := fun ts ↦
  match wildcardAhead ts with
  | .ok (some p, rest) => .ok (.special p, rest)
  | .ok (none, _) => (do return Argument.plain (← n.expression) : Rule Argument) ts
  | .error e => .error e

/-- An argument with a name. -/
def namedArgument (n : Nested) : Rule Argument := do
  let name ← identifier
  let operator ← (do
    if ← symbol? .fatArrow then return " => "
    if ← symbol? .assign then return " := "
    if ← key? "VALUE" then return " VALUE "
    expected .argumentOperator)
  let a ← wildcardOr n
  return .special (.concat [.name [name], .text operator, a.phrase])

def argument (n : Nested) : Rule Argument := do
  match ← attempt (namedArgument n) with
  | some a => return a
  | none => wildcardOr n

/-- The arguments of a call with what stands around them inside the parentheses. -/
structure Arguments where
  distinct : Option String
  items : List Argument
  clauses : List Phrase
  /-- A word on nulls is among the clauses. -/
  hasNulls : Bool

namespace Arguments

/-- The list with its parentheses. -/
def phrase (a : Arguments) : Phrase :=
  let items := if a.items.isEmpty then [] else [.commas (a.items.map Argument.phrase)]
  .concat
    [.text "(", .text (a.distinct.elim "" (· ++ " ")), .separated " " (items ++ a.clauses),
     .text ")"]

/-- The expressions of a list that holds nothing else. -/
def plain? (a : Arguments) : Option (List Expr) :=
  if a.distinct.isSome || !a.clauses.isEmpty then none else a.items.mapM Argument.plain?

end Arguments

/-- A word on nulls, with the keyword that follows it. -/
def nullTreatment : Rule (Option String) := do
  match ← oneOfKeys? ["RESPECT", "IGNORE"] with
  | some k => key "NULLS"; return some (k ++ " NULLS")
  | none => return none

/-- What to do with nulls in an object that is built. -/
def nullsInObject : Rule (List Phrase) := do
  if ← keys? ["ABSENT", "ON", "NULL"] then return [.text "ABSENT ON NULL"]
  if ← keys? ["NULL", "ON", "NULL"] then return [.text "NULL ON NULL"]
  return []

/-- `ALL` or `DISTINCT`, but not both. -/
def duplicates : Rule (Option String) := do
  let place ← here
  let all ← key? "ALL"
  let distinct ← key? "DISTINCT"
  match all, distinct with
  | true, true => fail (.allAndDistinct (place.getD 0))
  | true, false => return some "ALL"
  | false, true => return some "DISTINCT"
  | false, false => return none

/-- What to do when a list of texts grows too long. -/
def onOverflow (n : Nested) : Rule (List Phrase) := do
  if !(← keys? ["ON", "OVERFLOW"]) then return []
  if ← key? "ERROR" then return [.text "ON OVERFLOW ERROR"]
  key "TRUNCATE"
  let filler ← (do
    match ← peek with
    | some (.word _ (some "WITH")) | some (.word _ (some "WITHOUT")) => return .empty
    | some (.string .plain _) | some (.string .escaped _) | some (.string .codePoints _)
    | some (.string .national _) | some (.string .hex _) =>
      return .concat [.text " ", ← n.phrase]
    | _ => expected .overflowFiller)
  match ← oneOfKeys? ["WITH", "WITHOUT"] with
  | some k =>
    key "COUNT"
    return [.concat [.text "ON OVERFLOW TRUNCATE", filler, .text (" " ++ k ++ " COUNT")]]
  | none => expected .overflowCount

/-- The clauses that may follow the arguments and a word on nulls, in their order. -/
def argumentClauses (n : Nested) : Rule (List Phrase) := do
  let order ← afterKeys? ["ORDER", "BY"] (orderItems n)
  let limit ← afterKey? "LIMIT" n.phrase
  let having ← afterKey? "HAVING" (do
    match ← oneOfKeys? ["MIN", "MAX"] with
    | some k => return .concat [.text (k ++ " "), ← n.phrase]
    | none => expected (.oneOf ["MIN", "MAX"]))
  let separator ← afterKey? "SEPARATOR" value
  let overflow ← onOverflow n
  let objectNulls ← nullsInObject
  let lead (word : String) (p : Option Phrase) : List Phrase :=
    p.toList.map fun p ↦ .concat [.text word, p]
  return lead "ORDER BY " order ++ lead "LIMIT " limit ++ lead "HAVING " having ++
    lead "SEPARATOR " (separator.map fun v ↦ .expr (.literal v)) ++
    overflow ++ objectNulls

/-- The arguments of a call, behind the opening parenthesis and with the closing one. -/
def arguments (n : Nested) : Rule Arguments := do
  let objectNulls ← nullsInObject
  if ← symbol? .rparen then return ⟨none, [], objectNulls, false⟩
  let distinct ← duplicates
  let items ← commaSeparated (argument n)
  let nulls ← nullTreatment
  let clauses ← argumentClauses n
  symbol .rparen
  return ⟨distinct, items, objectNulls ++ nulls.toList.map .text ++ clauses, nulls.isSome⟩

/-! ## Calls -/

/-- The ordering of a call on ordered sets. -/
def withinGroup (n : Nested) : Rule (Option Phrase) := do
  if ← keys? ["WITHIN", "GROUP"] then
    symbol .lparen
    keys ["ORDER", "BY"]
    let order ← orderItems n
    symbol .rparen
    return some (.concat [.text " WITHIN GROUP (ORDER BY ", order, .text ")"])
  else return none

/-- The window of a call, by its name or in parentheses. -/
def overWindow (n : Nested) : Rule (Option Phrase) := do
  if ← key? "OVER" then
    if ← symbol? .lparen then
      return some (.concat [.text " OVER (", ← window n, .text ")"])
    else return some (.concat [.text " OVER ", .name [← identifier]])
  else return none

/-- A call: the form that its text has, and the plain call that a filter keeps of it, if any. -/
structure Call where
  written : Phrase
  plain? : Option Expr
  /-- There is nothing in the text beside the plain call. -/
  exact : Bool

/-- The expression of a call. -/
def Call.toExpr (c : Call) : Expr :=
  match c.plain? with
  | none => c.written.toExpr
  | some e => if c.exact then e else c.written.keeping e

/-- The list behind a name, and a second list if there is one: the first then holds parameters. -/
def argumentLists (n : Nested) : Rule (Option Arguments × Arguments) := do
  symbol .lparen
  let first ← arguments n
  if ← symbol? .lparen then return (some first, ← arguments n) else return (none, first)

/-- A call of a function whose name has been read. -/
def call (n : Nested) (name : List Ident) : Rule Call := do
  let (parameters, args) ← argumentLists n
  let group ← withinGroup n
  let nulls ← if args.hasNulls then pure none else nullTreatment
  let window ← overWindow n
  let front := Phrase.concat
    [.name name, .optional (parameters.map Arguments.phrase), args.phrase]
  let nullsText := Phrase.text (nulls.elim "" (" " ++ ·))
  -- The window is visited before the ordering within the group, which is written before it.
  let back := Phrase.writtenAfter (.concat [nullsText, .optional window]) (.optional group)
  let isPlain := group.isNone && window.isNone
  return {
    written := front ++ back
    plain? := if isPlain then args.plain?.map (Expr.call name) else none
    exact := parameters.isNone && nulls.isNone }

/-- A name of the current date, time or user: alone, or with a list of arguments. -/
def currentValue (n : Nested) (name : Ident) : Rule Expr := do
  if ← symbol? .lparen then
    let args ← arguments n
    return Call.toExpr ⟨.concat [.name [name], args.phrase], args.plain?.map (.call [name]), true⟩
  else return (Phrase.name [name]).toExpr

end Funnel.Sql.Grammar
