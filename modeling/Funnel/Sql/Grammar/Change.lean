import Funnel.Sql.Grammar.Selection

/-!
# Changes of tables

Insertions and updates.  The grammar allows them where a query can stand, since both may give rows
back.
-/

namespace Funnel.Sql.Grammar

open Rule

/-- What to do with a row that breaks a constraint, as one word. -/
def conflictWord : Rule (Option Keyword) := do
  for k in ["REPLACE", "ROLLBACK", "ABORT", "FAIL", "IGNORE"] do
    if ← keys? ["OR", k] then return some k
  oneOfKeys? ["REPLACE"]

/-- A column, or several in parentheses, and the new value. -/
def assignment (n : Nested) : Rule Phrase := do
  let target ← (do
    if ← nextIsSymbol .lparen then
      let names ← parenthesized (commaSeparated dottedName)
      return .concat [.text "(", .commas (names.map .name), .text ")"]
    return .name (← dottedName))
  symbol .eq
  return .concat [target, .text " = ", ← n.phrase]

def assignments (n : Nested) : Rule Phrase := do
  return .commas (← commaSeparated (assignment n))

/-- The rows that a change gives back. -/
def returningClause (n : Nested) : Rule Phrase :=
  clause ["RETURNING"] (do return .commas (← commaSeparated (selectItem n)))

/-- An update, behind its keyword. -/
def update (n : Nested) : Rule Phrase := do
  let conflict ← conflictWord
  let table ← tableWithJoins n
  key "SET"
  let changes ← assignments n
  let source ← clause ["FROM"] (tableWithJoins n)
  let condition ← clause ["WHERE"] n.phrase
  return .concat
    [.text ("UPDATE " ++ conflict.elim "" ("OR " ++ · ++ " ")), table, .text " SET ", changes,
     source, condition, ← returningClause n]

/-! ## Insertions -/

/-- What to do when an inserted row is there already. -/
def onConflict (n : Nested) : Rule Phrase := do
  let target ← (do
    if ← keys? ["ON", "CONSTRAINT"] then
      return .concat [.text " ON CONSTRAINT ", .name (← dottedName)]
    if ← nextIsSymbol .lparen then
      return .concat [.text "(", namesPhrase (← columnList), .text ")"]
    return Phrase.empty)
  key "DO"
  if ← key? "NOTHING" then return .concat [.text " ON CONFLICT", target, .text " DO NOTHING"]
  keys ["UPDATE", "SET"]
  let changes ← assignments n
  return .concat
    [.text " ON CONFLICT", target, .text " DO UPDATE SET ", changes, ← clause ["WHERE"] n.phrase]

/-- What follows the rows of an insertion. -/
def insertionTail (n : Nested) : Rule Phrase := do
  let rowName ← (do
    if !(← key? "AS") then return .empty
    let name ← dottedName
    let columns ← optionalColumnList
    let columnsPart : Phrase :=
      if columns.isEmpty then .empty else .concat [.text " (", namesPhrase columns, .text ")"]
    return .concat [.text " AS ", .name name, columnsPart])
  let onDuplicate ← (do
    if !(← key? "ON") then return .empty
    if ← key? "CONFLICT" then return ← onConflict n
    keys ["DUPLICATE", "KEY", "UPDATE"]
    return .concat [.text " ON DUPLICATE KEY UPDATE ", ← assignments n])
  return .concat [rowName, onDuplicate, ← returningClause n]

/-- Rows that are written to files in a directory. -/
def directoryInsertion (n : Nested) (words : String) : Rule Phrase := do
  let path ← literalString
  let format ← (do
    if !(← keys? ["STORED", "AS"]) then return ""
    match ← oneOfKeys? ["AVRO", "JSONFILE", "ORC", "PARQUET", "RCFILE", "SEQUENCEFILE",
      "TEXTFILE"] with
    | some k => return " STORED AS " ++ k
    | none => expected .fileFormat)
  return .concat [.text (words ++ " DIRECTORY '" ++ path ++ "'" ++ format ++ " "), ← n.query]

/-- An insertion, behind its keyword. -/
def insertion (n : Nested) : Rule Phrase := do
  let conflict ← conflictWord
  let priority ← oneOfKeys? ["LOW_PRIORITY", "DELAYED", "HIGH_PRIORITY"]
  let ignore ← key? "IGNORE"
  let overwrite ← key? "OVERWRITE"
  let into ← key? "INTO"
  let inPlace ← key? "LOCAL"
  let word (given : Bool) (w : String) : String := if given then w else ""
  if ← key? "DIRECTORY" then
    return ← directoryInsertion n
      ("INSERT" ++ word overwrite " OVERWRITE" ++ word inPlace " LOCAL")
  let table ← key? "TABLE"
  let name ← dottedName
  let words := match conflict with
    | some k => "INSERT OR " ++ k ++ " INTO "
    | none =>
      "INSERT" ++ priority.elim "" (" " ++ ·) ++ word ignore " IGNORE" ++
        word overwrite " OVERWRITE" ++ word into " INTO" ++ word table " TABLE" ++ " "
  let front := Phrase.concat [.text words, .name name, .text " "]
  if ← keys? ["DEFAULT", "VALUES"] then
    return .concat [front, .text "DEFAULT VALUES", ← insertionTail n]
  let queryNext :=
    (← nextIsSymbol .lparen) && (← peekAt 1).bind Token.key? == some "SELECT"
  let columns ← if queryNext then pure [] else optionalColumnList
  let columnsPart : Phrase :=
    if columns.isEmpty then .empty else .concat [.text "(", namesPhrase columns, .text ") "]
  let partition ← (do
    if queryNext then return .empty
    if !(← key? "PARTITION") then return .empty
    return .concat [.text "PARTITION (", ← parenthesized n.list, .text ") "])
  -- The rows are visited before the values that choose the partition.
  let source ← n.query
  return .concat [front, columnsPart, .writtenAfter source partition, ← insertionTail n]

end Funnel.Sql.Grammar
