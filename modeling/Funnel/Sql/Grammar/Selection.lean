import Funnel.Sql.Grammar.Table

/-!
# Selections

`SELECT` and its clauses, from the columns of the result to the conditions on a hierarchy.  The
clauses are visited in the order of the text, except that windows come before the condition on
them.
-/

namespace Funnel.Sql.Grammar

open Rule

/-- A clause that keywords open, with a space before it. -/
def clause (ks : List Keyword) (r : Rule Phrase) : Rule Phrase := do
  match ← afterKeys? ks r with
  | some p => return .concat [.text (" " ++ " ".intercalate ks ++ " "), p]
  | none => return .empty

/-! ## The result -/

/-- `DISTINCT`, perhaps on some expressions; `ALL` is the default and not kept. -/
def selectDistinct (n : Nested) : Rule Phrase := do
  let place ← here
  let all ← key? "ALL"
  if !(← key? "DISTINCT") then return .empty
  if all then fail (.allAndDistinct (place.getD 0))
  if !(← key? "ON") then return .text " DISTINCT"
  symbol .lparen
  let on ← if ← nextIsSymbol .rparen then pure .empty else n.list
  symbol .rparen
  return .concat [.text " DISTINCT ON (", on, .text ")"]

/-- How many of the rows are wanted. -/
def topRows (n : Nested) : Rule Phrase := do
  if !(← key? "TOP") then return .empty
  let quantity ← (do
    if ← nextIsSymbol .lparen then
      return .concat [.text "(", ← parenthesized n.phrase, .text ")"]
    return Phrase.text (toString (← literalInteger)))
  let percent ← key? "PERCENT"
  let ties ← keys? ["WITH", "TIES"]
  return .concat
    [.text " TOP ", quantity,
     .text ((if percent then " PERCENT" else "") ++ if ties then " WITH TIES" else "")]

/-- One item, or several in parentheses. -/
def oneOrList (item : Rule Phrase) : Rule Phrase := do
  if ← nextIsSymbol .lparen then
    return .concat [.text "(", .commas (← parenthesized (commaSeparated item)), .text ")"]
  else item

/-- A column and its new name; `AS` may be missing. -/
def renamed : Rule Phrase := do
  let column ← identifier
  let _ ← key? "AS"
  return .concat [.name [column], .text " AS ", .name [← identifier]]

/-- An expression that takes the place of a column. -/
def replacement (n : Nested) : Rule Phrase := do
  let e ← n.phrase
  let explicit ← key? "AS"
  return .concat [e, .text (if explicit then " AS " else " "), .name [← identifier]]

/-- What may follow `*`: which columns to take, to leave out, to replace and to rename. -/
def wildcardOptions (n : Nested) : Rule Phrase := do
  let column : Rule Phrase := do return .name [← identifier]
  let pattern ← afterKey? "ILIKE" (do
    match ← quotedString? with
    | some s => return Phrase.concat [.text " ILIKE ", .literal (.string .plain s)]
    | none => expected .likePattern)
  let excluded ← (do
    if pattern.isSome then return .empty
    clause ["EXCLUDE"] (oneOrList column))
  let except ← clause ["EXCEPT"] (do
    let columns ← if ← nextIsSymbol .lparen then columnList else pure [← identifier]
    return .concat [.text "(", namesPhrase columns, .text ")"])
  let replaced ← clause ["REPLACE"] (do
    if !(← nextIsSymbol .lparen) then expected .replacements
    oneOrList (replacement n))
  let newNames ← clause ["RENAME"] (oneOrList renamed)
  return .concat [.optional pattern, excluded, except, replaced, newNames]

/-- A column of the result.  The word `FROM` cannot be one. -/
def selectItem (n : Nested) : Rule Phrase := do
  match ← wildcardOr n with
  | .special p => return p ++ (← wildcardOptions n)
  | .plain e =>
    match e with
    | .column [⟨word, none, _⟩] =>
      if Text.sameIgnoringCase word "from" then fail (.nothingSelected word (← here))
    | _ => pure ()
    return .expr e ++ asPhrase (← newName columnNameStops)

/-- The table that the result goes to. -/
def intoClause : Rule Phrase := do
  if !(← key? "INTO") then return .empty
  let temporary := (← oneOfKeys? ["TEMP", "TEMPORARY"]).isSome
  let unlogged ← key? "UNLOGGED"
  let table ← key? "TABLE"
  let words := " INTO" ++ (if temporary then " TEMPORARY" else "") ++
    (if unlogged then " UNLOGGED" else "") ++ if table then " TABLE " else " "
  return .concat [.text words, .name (← dottedName)]

/-! ## The rows -/

/-- Keywords that cannot be the name of a column of a lateral view. -/
def viewNameStops : List Keyword := ["WHERE", "GROUP", "CLUSTER", "HAVING", "LATERAL"]

/-- The lateral views.  Each takes tokens, so the tokens that are left bound their number. -/
def lateralViewsIn (n : Nested) : Nat → Rule Phrase
  | 0 => return .empty
  | fuel + 1 => do
    if !(← keys? ["LATERAL", "VIEW"]) then return .empty
    let outer ← key? "OUTER"
    let e ← n.phrase
    let name ← dottedName
    let columns ← commaSeparated (newName viewNameStops)
    let columns := columns.filterMap id
    let columnsPart : Phrase :=
      if columns.isEmpty then .empty else .concat [.text " AS ", namesPhrase columns]
    return .concat
      [.text (" LATERAL VIEW" ++ if outer then " OUTER " else " "), e, .text " ", .name name,
       columnsPart, ← lateralViewsIn n fuel]

/-- An expression, or several in parentheses; there may be none. -/
def groupingSet (n : Nested) : Rule (List Expr) :=
  parenthesized (commaSeparatedUntil .rparen n.expression)

/-- Sets of groups; a set of one expression may be written without parentheses. -/
def groupingSets (n : Nested) (word : String) : Rule Phrase := do
  let sets ← parenthesized (commaSeparated do
    if ← nextIsSymbol .lparen then groupingSet n else return [← n.expression])
  let set : List Expr → Phrase
    | [e] => .expr e
    | es => .concat [.text "(", .commas (es.map .expr), .text ")"]
  return .concat [.text (word ++ " ("), .commas (sets.map set), .text ")"]

/-- What is grouped by: an expression, sets of them, or nothing at all. -/
def groupItem (n : Nested) : Rule Phrase := do
  if ← keys? ["GROUPING", "SETS"] then
    let sets ← parenthesized (commaSeparated (groupingSet n))
    let set (es : List Expr) : Phrase := .concat [.text "(", .commas (es.map .expr), .text ")"]
    return .concat [.text "GROUPING SETS (", .commas (sets.map set), .text ")"]
  if ← key? "CUBE" then return ← groupingSets n "CUBE"
  if ← key? "ROLLUP" then return ← groupingSets n "ROLLUP"
  if (← nextIsSymbol .lparen) && (← peekAt 1) == some (.symbol .rparen) then
    skip
    skip
    return .text "()"
  n.phrase

/-- The totals beside the groups. -/
def groupTotalsIn : Nat → Rule String
  | 0 => return ""
  | fuel + 1 => do
    if !(← key? "WITH") then return ""
    let kinds := ["ROLLUP", "CUBE", "TOTALS"]
    match ← oneOfKeys? kinds with
    | some k => return " WITH " ++ k ++ (← groupTotalsIn fuel)
    | none => expected (.oneOf kinds)

def grouping (n : Nested) : Rule Phrase := do
  let groups ← (do
    if ← key? "ALL" then return .text "ALL"
    return .commas (← commaSeparated (groupItem n)))
  return groups ++ .text (← groupTotalsIn (← size))

/-! ## Windows and hierarchies -/

/-- A window with a name: one of its own, or another one by its name. -/
def namedWindow (n : Nested) : Rule Phrase := do
  let name ← identifier
  key "AS"
  let body ← (do
    if ← symbol? .lparen then return .concat [.text "(", ← window n, .text ")"]
    return Phrase.name [← identifier])
  return .concat [.name [name], .text " AS ", body]

/-- The named windows and the condition on windows, in either order; the windows are visited
first. -/
def windowClauses (n : Nested) : Rule Phrase := do
  let windows : Rule Phrase := clause ["WINDOW"] (do
    return .commas (← commaSeparated (namedWindow n)))
  let condition : Rule Phrase := clause ["QUALIFY"] n.phrase
  if ← nextIsKey "QUALIFY" then
    let c ← condition
    return .writtenAfter (← windows) c
  else
    let w ← windows
    if w.wording.isEmpty then return .empty else return w ++ (← condition)

/-- The rows that a hierarchy begins with, and how a row finds its children; either may come
first. -/
def hierarchy (n : Nested) : Rule Phrase := do
  let related : Rule Phrase := do return .commas ((← commaSeparated n.hierarchic).map .expr)
  let written (condition relationships : Phrase) : Phrase :=
    .concat [.text " START WITH ", condition, .text " CONNECT BY ", relationships]
  if !((← nextIsKey "START") || (← nextIsKey "CONNECT")) then return .empty
  if ← keys? ["CONNECT", "BY"] then
    let relationships ← related
    keys ["START", "WITH"]
    return written (← n.phrase) relationships
  else
    keys ["START", "WITH"]
    let condition ← n.phrase
    keys ["CONNECT", "BY"]
    return written condition (← related)

/-! ## The whole -/

/-- A selection, behind its keyword. -/
def selection (n : Nested) : Rule Phrase := do
  let distinct ← selectDistinct n
  let top ← topRows n
  let items ← commaSeparated (selectItem n)
  let into ← intoClause
  let tables ← clause ["FROM"] (do return .commas (← commaSeparated (tableWithJoins n)))
  let views ← lateralViewsIn n (← size)
  let early ← clause ["PREWHERE"] n.phrase
  let condition ← clause ["WHERE"] n.phrase
  let groups ← clause ["GROUP", "BY"] (grouping n)
  let cluster ← clause ["CLUSTER", "BY"] n.list
  let distribute ← clause ["DISTRIBUTE", "BY"] n.list
  let sort ← clause ["SORT", "BY"] n.list
  let having ← clause ["HAVING"] n.phrase
  let windows ← windowClauses n
  let rows ← hierarchy n
  return .concat
    [.text "SELECT", distinct, top, .text " ", .commas items, into, tables, views, early,
     condition, groups, cluster, distribute, sort, having, windows, rows]

end Funnel.Sql.Grammar
