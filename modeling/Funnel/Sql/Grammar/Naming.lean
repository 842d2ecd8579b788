import Funnel.Sql.Grammar.Call

/-!
# Names for columns and tables

A column or a table of a query may be given a name.  The word `AS` in front of it may be missing;
then a keyword that can go on with the query is not taken for a name.
-/

namespace Funnel.Sql.Grammar

open Rule

/-- Keywords that cannot be the name of a column when `AS` is missing. -/
def columnNameStops : List Keyword :=
  ["WITH", "EXPLAIN", "ANALYZE", "SELECT", "WHERE", "GROUP", "SORT", "HAVING", "ORDER", "TOP",
   "LATERAL", "VIEW", "LIMIT", "OFFSET", "FETCH", "UNION", "EXCEPT", "INTERSECT", "CLUSTER",
   "DISTRIBUTE", "FROM", "INTO", "END"]

/-- Keywords that cannot be the name of a table when `AS` is missing. -/
def tableNameStops : List Keyword :=
  ["WITH", "EXPLAIN", "ANALYZE", "SELECT", "WHERE", "GROUP", "SORT", "HAVING", "ORDER", "PIVOT",
   "UNPIVOT", "TOP", "LATERAL", "VIEW", "LIMIT", "OFFSET", "FETCH", "UNION", "EXCEPT",
   "INTERSECT", "ON", "JOIN", "INNER", "CROSS", "FULL", "LEFT", "RIGHT", "NATURAL", "USING",
   "CLUSTER", "DISTRIBUTE", "GLOBAL", "OUTER", "SET", "QUALIFY", "WINDOW", "END", "FOR",
   "PARTITION", "PREWHERE", "SETTINGS", "FORMAT", "START", "CONNECT", "MATCH_RECOGNIZE"]

/-- A name for what was read before, if one follows. -/
def newName (stops : List Keyword) : Rule (Option Ident) := do
  let explicit ← key? "AS"
  match ← peek with
  | some (.word name key) =>
    if explicit || !((key.map stops.contains).getD false) then skip; return some name
    else return none
  | some (.string .plain s) => skip; return some (.quoted .single s)
  | _ => if explicit then expected .identifierAfterAs else return none

/-- A name with ` AS ` before it. -/
def asPhrase (name : Option Ident) : Phrase :=
  name.elim .empty fun name ↦ .concat [.text " AS ", .name [name]]

/-- Names of columns in parentheses, each with a type perhaps, after a space; nothing without
them. -/
def typedColumnNames (n : Nested) : Rule Phrase := do
  if ← nextIsSymbol .lparen then
    let columns ← parenthesized (commaSeparated do
      let name ← identifier
      match ← attempt (dataType n) with
      | some t => return .concat [.name [name], .text " ", .type t]
      | none => return Phrase.name [name])
    return .concat [.text " (", .commas columns, .text ")"]
  else return .empty

/-- A name for a table, with names for its columns. -/
def newTableName (n : Nested) : Rule (Option Phrase) := do
  match ← newName tableNameStops with
  | some name => return some (.concat [.name [name], ← typedColumnNames n])
  | none => return none

/-- A name for the result of an expression, for which `AS` is needed. -/
def namedAs (p : Phrase) : Rule Phrase := do
  return p ++ asPhrase (← afterKey? "AS" identifier)

end Funnel.Sql.Grammar
