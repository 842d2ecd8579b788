import Funnel.Sql.Grammar.Change

/-!
# Queries

A filter never looks into a query: a query is read for its end, its text and its columns.
-/

namespace Funnel.Sql.Grammar

open Rule

/-! ## Set operations -/

/-- A table by its name, with a schema perhaps.  Three tokens are taken, whatever they are; the
name comes out without its quotes. -/
def tableByName : Rule Phrase := do
  let word (what : Expectation) (t : Option Token) (place : Rule Unit) : Rule String :=
    match t with
    | some (.word name _) => return name.text
    | _ => do place; expected what
  let dotted := (← peekAt 1) == some (.symbol .period)
  let first ← peek
  let third ← peekAt 2
  let text ← (do
    if dotted then
      let schemaName ← word .schemaName first (pure ())
      return schemaName ++ "." ++ (← word .tableName third (do skip; skip))
    else word .tableName first (pure ()))
  skip
  skip
  skip
  return .text ("TABLE " ++ text)

/-- A query without a set operation at its top. -/
def simpleQuery (n : Nested) : Rule Phrase := do
  match ← peek with
  | some (.word _ (some "SELECT")) => skip; selection n
  | some (.symbol .lparen) =>
    return .concat [.text "(", ← parenthesized n.query, .text ")"]
  | some (.word _ (some "VALUES")) => skip; valueRows n
  | some (.word _ (some "TABLE")) => skip; tableByName
  | _ => expected .queryBody

/-- How a set operation treats rows that are equal. -/
def setQuantifier : Rule String := do
  if ← keys? ["DISTINCT", "BY", "NAME"] then return " DISTINCT BY NAME"
  if ← keys? ["BY", "NAME"] then return " BY NAME"
  if ← keys? ["ALL", "BY", "NAME"] then return " ALL BY NAME"
  if ← key? "ALL" then return " ALL"
  if ← key? "DISTINCT" then return " DISTINCT"
  return ""

/-- The level of a set operation; `INTERSECT` binds more tightly than the others. -/
def setLevel : Keyword → Nat
  | "UNION" | "EXCEPT" => 10
  | "INTERSECT" => 20
  | _ => 0

mutual

/-- A query whose set operations bind more tightly than a level. -/
def queryBodyIn (n : Nested) : Nat → Nat → Rule Phrase
  | 0, _ => expected .queryBody
  | fuel + 1, level => do setOperationsIn n fuel level (← simpleQuery n)
termination_by structural fuel => fuel

/-- The set operations behind a query. -/
def setOperationsIn (n : Nested) : Nat → Nat → Phrase → Rule Phrase
  | 0, _, left => return left
  | fuel + 1, level, left => do
    match ← peekKey with
    | some k =>
      if level < setLevel k then
        skip
        let quantifier ← setQuantifier
        let right ← queryBodyIn n fuel (setLevel k)
        setOperationsIn n fuel level
          (.concat [left, .text (" " ++ k ++ quantifier ++ " "), right])
      else return left
    | none => return left
termination_by structural fuel => fuel

end

def queryBody (n : Nested) : Rule Phrase := do queryBodyIn n (2 * (← size) + 1) 0

/-! ## In front of a query -/

/-- A named query in front of another one. -/
def commonTable (n : Nested) : Rule Phrase := do
  let name ← identifier
  let columns ← if ← nextIsKey "AS" then pure .empty else typedColumnNames n
  key "AS"
  let q ← parenthesized n.query
  let source ← afterKey? "FROM" identifier
  let sourcePart := source.elim Phrase.empty fun name ↦ .concat [.text " FROM ", .name [name]]
  return .concat [.name [name], columns, .text " AS (", q, .text ")", sourcePart]

/-- The named queries in front of a query. -/
def withClause (n : Nested) : Rule Phrase := do
  if ← key? "WITH" then
    let recursive ← key? "RECURSIVE"
    let tables ← commaSeparated (commonTable n)
    return .concat
      [.text (if recursive then "WITH RECURSIVE " else "WITH "), .commas tables, .text " "]
  else return .empty

/-! ## Behind a query -/

/-- How a gap in the ordered rows is filled: a column, and the value for it perhaps. -/
def interpolation (n : Nested) : Rule Phrase := do
  let column ← identifier
  match ← afterKey? "AS" n.phrase with
  | some e => return .concat [.name [column], .text " AS ", e]
  | none => return .name [column]

def orderClause (n : Nested) : Rule Phrase := do
  clause ["ORDER", "BY"] (do
    let items ← orderItems n
    if !(← key? "INTERPOLATE") then return items
    if !(← nextIsSymbol .lparen) then return items ++ .text " INTERPOLATE"
    let columns ← parenthesized (commaSeparatedUntil .rparen (interpolation n))
    return .concat [items, .text " INTERPOLATE (", .commas columns, .text ")"])

/-- The rows to skip, behind the keyword. -/
def offset (n : Nested) : Rule Phrase := do
  let e ← n.phrase
  let rows ← oneOfKeys? ["ROW", "ROWS"]
  return .concat [e, .text (rows.elim "" (" " ++ ·))]

/-- The bounds on the rows of a result. -/
structure RowBounds where
  limit : Option Phrase
  offset : Option Phrase

namespace RowBounds

/-- One round of reading bounds, each of which is read at most once; `LIMIT ALL` sets no bound.
With a comma between them, the rows to skip come first. -/
def read (n : Nested) (b : RowBounds) : Rule RowBounds := do
  let limit ← (do
    if b.limit.isSome then return b.limit
    if !(← key? "LIMIT") then return none
    if ← key? "ALL" then return none
    return some (← n.phrase))
  let offset ← (do
    if b.offset.isSome then return b.offset
    afterKey? "OFFSET" (Grammar.offset n))
  match limit, offset with
  | some skipped, none =>
    if ← symbol? .comma then return ⟨some (← n.phrase), some skipped⟩
    else return ⟨limit, offset⟩
  | _, _ => return ⟨limit, offset⟩

end RowBounds

/-- The first rows of a result. -/
def fetchClause : Rule String := do
  if !(← key? "FETCH") then return ""
  let ends := ["FIRST", "NEXT"]
  let units := ["ROW", "ROWS"]
  if (← oneOfKeys? ends).isNone then expected (.oneOf ends)
  let quantity ← (do
    if (← oneOfKeys? units).isSome then return ""
    let v ← value
    let percent ← key? "PERCENT"
    if (← oneOfKeys? units).isNone then expected (.oneOf units)
    return " " ++ v.sql ++ if percent then " PERCENT" else "")
  if ← key? "ONLY" then return " FETCH FIRST" ++ quantity ++ " ROWS ONLY"
  if ← keys? ["WITH", "TIES"] then return " FETCH FIRST" ++ quantity ++ " ROWS WITH TIES"
  expected (.oneOf ["ONLY", "WITH TIES"])

/-! ## The form of the result -/

/-- A text in parentheses behind a word, if it follows. -/
def quotedPart : Rule String := do
  if ← nextIsSymbol .lparen then return "('" ++ (← parenthesized literalString) ++ "')"
  else return ""

/-- The options behind `FOR XML`, behind commas; an unknown one is left to what follows. -/
structure XmlOptions where
  elements : Bool
  binary : Bool
  root : Option String
  typed : Bool

def xmlOptionsIn : Nat → XmlOptions → Rule XmlOptions
  | 0, o => return o
  | fuel + 1, o => do
    if !(← symbol? .comma) then return o
    if ← key? "ELEMENTS" then return ← xmlOptionsIn fuel { o with elements := true }
    if ← key? "BINARY" then
      key "BASE64"
      return ← xmlOptionsIn fuel { o with binary := true }
    if ← key? "ROOT" then
      return ← xmlOptionsIn fuel { o with root := some (← parenthesized literalString) }
    if ← key? "TYPE" then return ← xmlOptionsIn fuel { o with typed := true }
    xmlOptionsIn fuel o

/-- The root of a document that a result is turned into. -/
def rootText (root : Option String) : String := root.elim "" (", ROOT('" ++ · ++ "')")

def xmlForm : Rule String := do
  let mode ← (do
    match ← oneOfKeys? ["RAW", "AUTO", "EXPLICIT", "PATH"] with
    | some "RAW" => return "RAW" ++ (← quotedPart)
    | some "PATH" => return "PATH" ++ (← quotedPart)
    | some k => return k
    | none => fail .xmlMode)
  let o ← xmlOptionsIn (← size) ⟨false, false, none, false⟩
  return " FOR XML " ++ mode ++ (if o.binary then ", BINARY BASE64" else "") ++
    (if o.typed then ", TYPE" else "") ++ rootText o.root ++
    if o.elements then ", ELEMENTS" else ""

/-- The options behind `FOR JSON`, behind commas; an unknown one is left to what follows. -/
structure JsonOptions where
  root : Option String
  nulls : Bool
  unwrapped : Bool

def jsonOptionsIn : Nat → JsonOptions → Rule JsonOptions
  | 0, o => return o
  | fuel + 1, o => do
    if !(← symbol? .comma) then return o
    if ← key? "ROOT" then
      return ← jsonOptionsIn fuel { o with root := some (← parenthesized literalString) }
    if ← key? "INCLUDE_NULL_VALUES" then return ← jsonOptionsIn fuel { o with nulls := true }
    if ← key? "WITHOUT_ARRAY_WRAPPER" then
      return ← jsonOptionsIn fuel { o with unwrapped := true }
    jsonOptionsIn fuel o

def jsonForm : Rule String := do
  let mode ← (do
    match ← oneOfKeys? ["AUTO", "PATH"] with
    | some k => return k
    | none => fail .jsonMode)
  let o ← jsonOptionsIn (← size) ⟨none, false, false⟩
  return " FOR JSON " ++ mode ++ rootText o.root ++
    (if o.nulls then ", INCLUDE_NULL_VALUES" else "") ++
    if o.unwrapped then ", WITHOUT_ARRAY_WRAPPER" else ""

/-- A lock on the rows of a result. -/
def lock : Rule Phrase := do
  let kinds := ["UPDATE", "SHARE"]
  match ← oneOfKeys? kinds with
  | none => expected (.oneOf kinds)
  | some kind =>
    let table := (← afterKey? "OF" dottedName).elim Phrase.empty fun name ↦
      .concat [.text " OF ", .name name]
    let waiting ← (do
      if ← key? "NOWAIT" then return " NOWAIT"
      if ← keys? ["SKIP", "LOCKED"] then return " SKIP LOCKED"
      return "")
    return .concat [.text (" FOR " ++ kind), table, .text waiting]

/-- Locks, and the form of the result behind them. -/
def forClausesIn : Nat → Rule Phrase
  | 0 => return .empty
  | fuel + 1 => do
    if !(← key? "FOR") then return .empty
    if ← key? "XML" then return .text (← xmlForm)
    if ← key? "JSON" then return .text (← jsonForm)
    if ← key? "BROWSE" then return .text " FOR BROWSE"
    let first ← lock
    return first ++ (← forClausesIn fuel)

/-- The format of a result. -/
def formatClause : Rule Phrase := do
  if !(← key? "FORMAT") then return .empty
  if ← key? "NULL" then return .text " FORMAT NULL"
  return .concat [.text " FORMAT ", .name [← identifier]]

/-! ## Whole queries -/

/-- A query with everything in front of it and behind it.  The limit comes out before the rows to
skip, in whichever order they were written. -/
def query (n : Nested) : Rule Phrase := do
  let common ← withClause n
  if ← key? "INSERT" then return common ++ (← insertion n)
  if ← key? "UPDATE" then return common ++ (← update n)
  let body ← queryBody n
  let order ← orderClause n
  let bounds ← RowBounds.read n (← RowBounds.read n ⟨none, none⟩)
  let lead (word : String) (p : Option Phrase) : Phrase :=
    p.elim .empty fun p ↦ .concat [.text word, p]
  let perGroup ← afterKey? "BY" n.list
  let settings ← afterKey? "SETTINGS" settings
  let fetch ← fetchClause
  let locks ← forClausesIn (← size)
  let format ← formatClause
  return .concat
    [common, body, order, lead " LIMIT " bounds.limit,
     .writtenAfter (lead " BY " perGroup) (lead " OFFSET " bounds.offset),
     lead " " settings, .text fetch, locks, format]

/-- A query is next. -/
def queryAhead : Rule Bool := do
  return (← nextIsKey "SELECT") || (← nextIsKey "WITH")

end Funnel.Sql.Grammar
