import Funnel.Sql.Grammar.RowPattern

/-!
# Tables of a query

What a query reads from: named tables, functions, queries, lists of rows, documents taken apart,
and joins of these.
-/

namespace Funnel.Sql.Grammar

open Rule

/-! ## Rows of values -/

/-- A row of values, and whether the word `ROW` stands before it. -/
def valueRow (n : Nested) : Rule (Bool × Phrase) := do
  let explicit ← key? "ROW"
  return (explicit, ← parenthesized n.list)

/-- Rows of values behind their keyword.  If one row is written with `ROW`, all are. -/
def valueRows (n : Nested) : Rule Phrase := do
  let rows ← commaSeparated (valueRow n)
  let opening := if rows.any Prod.fst then "ROW(" else "("
  return .concat
    [.text "VALUES ", .commas (rows.map fun (_, row) ↦ .concat [.text opening, row, .text ")"])]

/-! ## Settings -/

/-- Settings behind their keyword. -/
def settings : Rule Phrase := do
  let items ← commaSeparated (do
    let name ← identifier
    symbol .eq
    let v ← value
    return .concat [.name [name], .text " = ", .literal v])
  return .concat [.text "SETTINGS ", .commas items]

/-! ## Documents taken apart -/

/-- What a column of a document shows where there is nothing or an error to show. -/
def columnFallback : Rule (Option Phrase) := do
  let fallback ← (do
    if ← key? "NULL" then return some (.text "NULL")
    if ← key? "ERROR" then return some (.text "ERROR")
    if ← key? "DEFAULT" then return some (.concat [.text "DEFAULT ", .literal (← value)])
    return none)
  if fallback.isSome then key "ON"
  return fallback

/-- The fallbacks of a column on an empty place and on an error; the last one of each counts. -/
def columnFallbacksIn : Nat → Phrase → Phrase → Rule Phrase
  | 0, onEmpty, onError => return onEmpty ++ onError
  | fuel + 1, onEmpty, onError => do
    match ← columnFallback with
    | none => return onEmpty ++ onError
    | some fallback =>
      let on (place : String) : Phrase := .concat [.text " ", fallback, .text (" ON " ++ place)]
      if ← key? "EMPTY" then columnFallbacksIn fuel (on "EMPTY") onError
      else
        key "ERROR"
        columnFallbacksIn fuel onEmpty (on "ERROR")

/-- A column of a document: one with columns of its own, a counter, or a value at a path. -/
def documentColumnIn (n : Nested) : Nat → Rule Phrase
  | 0 => expected .identifier
  | fuel + 1 => do
    if ← key? "NESTED" then
      let _ ← key? "PATH"
      let path ← value
      key "COLUMNS"
      let columns ← parenthesized (commaSeparated (documentColumnIn n fuel))
      return .concat
        [.text "NESTED PATH ", .literal path, .text " COLUMNS (", .commas columns, .text ")"]
    let name ← identifier
    if ← key? "FOR" then
      key "ORDINALITY"
      return .concat [.name [name], .text " FOR ORDINALITY"]
    let type ← dataType n
    let presence ← key? "EXISTS"
    key "PATH"
    let path ← value
    let fallbacks ← columnFallbacksIn (← size) .empty .empty
    return .concat
      [.name [name], .text " ", .type type,
       .text ((if presence then " EXISTS" else "") ++ " PATH "), .literal path, fallbacks]

/-- `JSON_TABLE` behind its opening parenthesis. -/
def jsonTable (n : Nested) : Rule Phrase := do
  let document ← n.phrase
  symbol .comma
  let path ← value
  key "COLUMNS"
  let columns ← parenthesized (commaSeparated do documentColumnIn n ((← size) + 1))
  symbol .rparen
  return .concat
    [.text "JSON_TABLE(", document, .text ", ", .literal path, .text " COLUMNS(",
     .commas columns, .text "))"]

/-- A column of `OPENJSON`. -/
def openJsonColumn (n : Nested) : Rule Phrase := do
  let name ← identifier
  let type ← dataType n
  let path ← quotedString?
  let asJson ← key? "AS"
  if asJson then key "JSON"
  return .concat
    [.name [name], .text " ", .type type,
     path.elim .empty fun s ↦ .concat [.text " ", .literal (.string .plain s)],
     .text (if asJson then " AS JSON" else "")]

/-- `OPENJSON` behind its opening parenthesis. -/
def openJson (n : Nested) : Rule Phrase := do
  let document ← n.phrase
  let path ← (do
    if ← symbol? .comma then return .concat [.text ", ", .literal (← value)] else return .empty)
  symbol .rparen
  let columns ← afterKey? "WITH" (parenthesized (commaSeparated (openJsonColumn n)))
  let columnsPart := columns.elim Phrase.empty fun columns ↦
    .concat [.text " WITH (", .commas columns, .text ")"]
  return .concat [.text "OPENJSON(", document, path, .text ")", columnsPart]

/-! ## Tables -/

/-- A table of a query, in the parts around the place of its name. -/
structure Table where
  front : Phrase
  /-- The name that the query gives to the table. -/
  newName : Option Phrase
  back : Phrase
  /-- The table is a join in parentheses. -/
  isJoin : Bool

namespace Table

def phrase (t : Table) : Phrase :=
  .concat [t.front, t.newName.elim .empty fun name ↦ .concat [.text " AS ", name], t.back]

end Table

/-- A table with the name that follows it. -/
def named (n : Nested) (front : Phrase) : Rule Table := do
  return ⟨front, ← newTableName n, .empty, false⟩

/-- A query in the place of a table, behind its opening parenthesis. -/
def derivedTable (n : Nested) (word : String) : Rule Table := do
  let q ← n.query
  symbol .rparen
  named n (.concat [.text (word ++ "("), q, .text ")"])

/-- The arguments of a function in the place of a table, up to the closing parenthesis. -/
def tableArgumentsIn (n : Nested) : Nat → Rule (List Phrase)
  | 0 => expected .expression
  | fuel + 1 => do
    if ← key? "SETTINGS" then return [← settings]
    let a ← argument n
    if ← symbol? .comma then return a.phrase :: (← tableArgumentsIn n fuel)
    else return [a.phrase]

/-- The arguments of a function in the place of a table, behind the opening parenthesis and with
the closing one. -/
def tableArguments (n : Nested) : Rule Phrase := do
  if ← symbol? .rparen then return .text "()"
  let args ← tableArgumentsIn n ((← size) + 1)
  symbol .rparen
  return .concat [.text "(", .commas args, .text ")"]

/-- Columns of a table that are turned from values of a column, behind `PIVOT`. -/
def pivot (n : Nested) : Rule Phrase := do
  symbol .lparen
  let functions ← commaSeparated (do
    match ← peek with
    | some (.word name _) => skip; namedAs (← call n [.plain name.text]).toExpr
    | _ => skip; expected .functionName)
  key "FOR"
  let column ← dottedName
  key "IN"
  symbol .lparen
  let values ← (do
    if ← key? "ANY" then
      let order ← afterKeys? ["ORDER", "BY"] (orderItems n)
      return .concat [.text "ANY", order.elim .empty fun p ↦ .concat [.text " ORDER BY ", p]]
    if (← nextIsKey "SELECT") || (← nextIsKey "WITH") then return ← n.query
    return .commas (← commaSeparated do namedAs (← n.phrase)))
  symbol .rparen
  let default ← afterKeys? ["DEFAULT", "ON", "NULL"] (parenthesized n.phrase)
  symbol .rparen
  return .concat
    [.text " PIVOT(", .commas functions, .text " FOR ", .name column, .text " IN (", values,
     .text ")", default.elim .empty fun p ↦ .concat [.text " DEFAULT ON NULL (", p, .text ")"],
     .text ")"]

/-- Columns of a table that are turned into values of a column, behind `UNPIVOT`. -/
def unpivot : Rule Phrase := do
  symbol .lparen
  let value ← identifier
  key "FOR"
  let name ← identifier
  key "IN"
  let columns ← columnList
  symbol .rparen
  return .concat
    [.text " UNPIVOT(", .name [value], .text " FOR ", .name [name], .text " IN (",
     namesPhrase columns, .text "))"]

/-- The turns behind a table.  Each takes a token, so the tokens that are left bound their
number. -/
def turnsIn (n : Nested) : Nat → Table → Rule Table
  | 0, t => return t
  | fuel + 1, t => do
    match ← oneOfKeys? ["PIVOT", "UNPIVOT"] with
    | some "PIVOT" => turnsIn n fuel (← named n (t.phrase ++ (← pivot n)))
    | some _ => turnsIn n fuel (← named n (t.phrase ++ (← unpivot)))
    | none => return t

/-- The values of an array as rows, behind `UNNEST`. -/
def unnestTable (n : Nested) : Rule Table := do
  let arrays ← parenthesized n.list
  let ordinality ← keys? ["WITH", "ORDINALITY"]
  let t ← named n (.concat
    [.text "UNNEST(", arrays, .text (if ordinality then ") WITH ORDINALITY" else ")")])
  let offset ← (do if ← key? "WITH" then key? "OFFSET" else return false)
  if !offset then return t
  return { t with back := .text " WITH OFFSET" ++ asPhrase (← newName columnNameStops) }

/-- A table by its name, or a function in the place of one. -/
def namedTable (n : Nested) : Rule Table := do
  let name ← dottedName
  let partitions ← afterKey? "PARTITION" (parenthesized (commaSeparated identifier))
  let partitionsPart := partitions.elim Phrase.empty fun names ↦
    .concat [.text "PARTITION (", namesPhrase names, .text ")"]
  let args ← (do if ← symbol? .lparen then tableArguments n else return .empty)
  let ordinality ← keys? ["WITH", "ORDINALITY"]
  let t ← named n (.concat
    [.name name, partitionsPart, args, .text (if ordinality then " WITH ORDINALITY" else "")])
  let hinted := (← nextIsKey "WITH") && (← peekAt 1) == some (.symbol .lparen)
  let hints ← (do
    if !hinted then return .empty
    skip
    return .concat [.text " WITH (", ← parenthesized n.list, .text ")"])
  let t ← turnsIn n (← size) { t with back := hints }
  if ← key? "MATCH_RECOGNIZE" then named n (t.phrase ++ (← matchRecognize n)) else return t

/-! ## Joins -/

/-- The condition of a join. -/
def joinCondition (n : Nested) : Rule Phrase := do
  if ← key? "ON" then return .concat [.text " ON ", ← n.phrase]
  if ← key? "USING" then
    return .concat [.text " USING(", namesPhrase (← columnList), .text ")"]
  return .empty

/-- The word of a join that has a condition: `JOIN` and what stands before it; nothing if no join
follows. -/
def joinWord : Rule (Option String) := do
  match ← peekKey with
  | some "INNER" | some "JOIN" =>
    let _ ← key? "INNER"
    key "JOIN"
    return some "JOIN"
  | some "FULL" =>
    skip
    let _ ← key? "OUTER"
    key "JOIN"
    return some "FULL JOIN"
  | some "OUTER" => expected .outerJoin
  | some side =>
    if side != "LEFT" && side != "RIGHT" then return none
    skip
    match ← oneOfKeys? ["OUTER", "SEMI", "ANTI", "JOIN"] with
    | some "JOIN" => return some (side ++ " JOIN")
    | some "OUTER" => key "JOIN"; return some (side ++ " JOIN")
    | some kind => key "JOIN"; return some (side ++ " " ++ kind ++ " JOIN")
    | none => fail (.sideWithoutJoin side)
  | none => return none

/-- A join behind a table, if one follows. -/
def join? (n : Nested) (table : Rule Table) : Rule (Option Phrase) := do
  let wide ← key? "GLOBAL"
  let joinPhrase (words : String) (relation condition : Phrase) : Option Phrase :=
    some (.concat
      [.text ((if wide then " GLOBAL " else " ") ++ words ++ " "), relation, condition])
  if ← key? "CROSS" then
    match ← oneOfKeys? ["JOIN", "APPLY"] with
    | some k => return joinPhrase ("CROSS " ++ k) (← table).phrase .empty
    | none => expected .afterCross
  if ← key? "OUTER" then
    key "APPLY"
    return joinPhrase "OUTER APPLY" (← table).phrase .empty
  if ← key? "ASOF" then
    key "JOIN"
    let relation ← table
    key "MATCH_CONDITION"
    let nearest ← parenthesized n.phrase
    let condition := Phrase.concat [.text " MATCH_CONDITION (", nearest, .text ")"]
    return joinPhrase "ASOF JOIN" relation.phrase (condition ++ (← joinCondition n))
  let natural ← key? "NATURAL"
  match ← joinWord with
  | none => if natural then expected .afterNatural else return none
  | some word =>
    let relation ← table
    if natural then return joinPhrase ("NATURAL " ++ word) relation.phrase .empty
    return joinPhrase word relation.phrase (← joinCondition n)

/-- The joins behind a table. -/
def joinsIn (n : Nested) (table : Rule Table) : Nat → Rule (List Phrase)
  | 0 => return []
  | fuel + 1 => do
    match ← join? n table with
    | some j => return j :: (← joinsIn n table fuel)
    | none => return []

/-- A table and the joins behind it.  Every join takes a token, so the tokens that are left bound
their number. -/
def joined (n : Nested) (table : Rule Table) : Rule (Table × List Phrase) := do
  let first ← table
  return (first, ← joinsIn n table (← size))

/-- What stands in parentheses and is no query: a join, or a table that could do without them. -/
def enclosedTable (n : Nested) (table : Rule Table) : Rule Table := do
  let (first, joins) ← joined n table
  symbol .rparen
  let outer ← newTableName n
  if !joins.isEmpty || first.isJoin then
    let front := Phrase.concat ([.text "(", first.phrase] ++ joins ++ [.text ")"])
    return ⟨front, outer, .empty, true⟩
  match outer, first.newName with
  | none, _ => return first
  | some name, none => return { first with newName := some name }
  | some _, some inner => fail (.duplicateAlias inner.sql)

/-- A table; tables may be in `fuel` pairs of parentheses. -/
def tableIn (n : Nested) : Nat → Rule Table
  | 0 => expected .identifier
  | fuel + 1 => do
    let opened (k : Keyword) : Rule Bool := do
      if (← nextIsKey k) && (← peekAt 1) == some (.symbol .lparen) then
        skip
        skip
        return true
      else return false
    if ← key? "LATERAL" then
      if ← symbol? .lparen then return ← derivedTable n "LATERAL "
      let name ← dottedName
      let args ← parenthesized (commaSeparatedUntil .rparen (argument n))
      return ← named n (.concat
        [.text "LATERAL ", .name name, .text "(", .commas (args.map Argument.phrase), .text ")"])
    if ← key? "TABLE" then
      let e ← parenthesized n.phrase
      return ← named n (.concat [.text "TABLE(", e, .text ")"])
    if ← symbol? .lparen then
      match ← attempt (derivedTable n "") with
      | some t => return ← turnsIn n (← size) t
      | none => return ← enclosedTable n (tableIn n fuel)
    if (← nextIsKey "VALUES") && (← peekAt 1) == some (.symbol .lparen) then
      skip
      let rows ← valueRows n
      return ← named n (.concat [.text "(", rows, .text ")"])
    if ← key? "UNNEST" then return ← unnestTable n
    if ← opened "JSON_TABLE" then return ← named n (← jsonTable n)
    if ← opened "OPENJSON" then return ← named n (← openJson n)
    namedTable n

/-- A table with its joins. -/
def tableWithJoins (n : Nested) : Rule Phrase := do
  let (first, joins) ← joined n (do tableIn n ((← size) + 1))
  return .concat (first.phrase :: joins)

end Funnel.Sql.Grammar
