import Funnel.Sql.Grammar.Nested

/-!
# Options of columns

What may stand behind the type of a column in the definition of a table: defaults, constraints and
the way in which its values are made.  A table within a column is a type, so a filter can hold
such a definition.
-/

namespace Funnel.Sql.Grammar

open Rule

/-! ## When a constraint is checked -/

/-- The characteristics of a constraint, each of which is given at most once. -/
structure Characteristics where
  deferrable : Option String
  initially : Option String
  enforced : Option String

namespace Characteristics

/-- The characteristics in their normal order, each with a space before it. -/
def text (c : Characteristics) : String :=
  String.join ((c.deferrable.toList ++ c.initially.toList ++ c.enforced.toList).map (" " ++ ·))

end Characteristics

/-- The characteristics that follow, at most `fuel` of them. -/
def characteristicsIn : Nat → Characteristics → Rule Characteristics
  | 0, c => return c
  | fuel + 1, c => do
    if c.deferrable.isNone then
      if ← keys? ["NOT", "DEFERRABLE"] then
        return ← characteristicsIn fuel { c with deferrable := some "NOT DEFERRABLE" }
      if ← key? "DEFERRABLE" then
        return ← characteristicsIn fuel { c with deferrable := some "DEFERRABLE" }
    if c.initially.isNone then
      if ← key? "INITIALLY" then
        match ← oneOfKeys? ["DEFERRED", "IMMEDIATE"] with
        | some k => return ← characteristicsIn fuel { c with initially := some ("INITIALLY " ++ k) }
        | none => expected (.oneOf ["DEFERRED", "IMMEDIATE"])
    if c.enforced.isNone then
      if ← key? "ENFORCED" then
        return ← characteristicsIn fuel { c with enforced := some "ENFORCED" }
      if ← keys? ["NOT", "ENFORCED"] then
        return ← characteristicsIn fuel { c with enforced := some "NOT ENFORCED" }
    return c

/-- The characteristics of a constraint, each with a space before it. -/
def characteristics : Rule String := do
  return (← characteristicsIn 4 ⟨none, none, none⟩).text

/-! ## References -/

/-- What happens to a row when the row that it refers to changes. -/
def referentialAction : Rule String := do
  if ← key? "RESTRICT" then return "RESTRICT"
  if ← key? "CASCADE" then return "CASCADE"
  if ← keys? ["SET", "NULL"] then return "SET NULL"
  if ← keys? ["NO", "ACTION"] then return "NO ACTION"
  if ← keys? ["SET", "DEFAULT"] then return "SET DEFAULT"
  expected .referentialAction

/-- The actions on a deletion and on an update, in any order. -/
def referentialActionsIn : Nat → Option String → Option String →
    Rule (Option String × Option String)
  | 0, onDelete, onUpdate => return (onDelete, onUpdate)
  | fuel + 1, onDelete, onUpdate => do
    if onDelete.isNone then
      if ← keys? ["ON", "DELETE"] then
        return ← referentialActionsIn fuel (some (← referentialAction)) onUpdate
    if onUpdate.isNone then
      if ← keys? ["ON", "UPDATE"] then
        return ← referentialActionsIn fuel onDelete (some (← referentialAction))
    return (onDelete, onUpdate)

/-- A reference to another table, behind its keyword. -/
def foreignKey : Rule Phrase := do
  let table ← dottedName
  let columns ← optionalColumnList
  let (onDelete, onUpdate) ← referentialActionsIn 3 none none
  let columnsPart : List Phrase :=
    if columns.isEmpty then [] else [.text " (", namesPhrase columns, .text ")"]
  return .concat
    ([.text "REFERENCES ", .name table] ++ columnsPart ++
      [.text (onDelete.elim "" (" ON DELETE " ++ ·)),
       .text (onUpdate.elim "" (" ON UPDATE " ++ ·)), .text (← characteristics)])

/-! ## Values that are made -/

/-- The options of a sequence, in their order. -/
def sequenceOptions : Rule (List String) := do
  let number (words : String) : Rule (List String) := do
    return [" " ++ words ++ " " ++ (← signedNumber)]
  let increment ← (do
    if ← keys? ["INCREMENT", "BY"] then number "INCREMENT BY"
    else if ← key? "INCREMENT" then number "INCREMENT"
    else return [])
  let bound (k : Keyword) : Rule (List String) := do
    if ← key? k then number k
    else if ← keys? ["NO", k] then return [" NO " ++ k]
    else return []
  let least ← bound "MINVALUE"
  let greatest ← bound "MAXVALUE"
  let start ← (do
    if ← keys? ["START", "WITH"] then number "START WITH"
    else if ← key? "START" then number "START"
    else return [])
  let cache ← (do if ← key? "CACHE" then number "CACHE" else return [])
  let cycle ← (do
    if ← keys? ["NO", "CYCLE"] then return [" NO CYCLE"]
    if ← key? "CYCLE" then return [" CYCLE"]
    return [])
  return increment ++ least ++ greatest ++ start ++ cache ++ cycle

/-- The sequence behind an identity column. -/
def identitySequence (mode : String) : Rule Phrase := do
  let options ← (do
    if ← nextIsSymbol .lparen then parenthesized sequenceOptions else return [])
  let optionsText := if options.isEmpty then "" else " (" ++ String.join options ++ " )"
  return .text ("GENERATED " ++ mode ++ " AS IDENTITY" ++ optionsText)

/-- An expression in parentheses that makes the values of a column, and whether they are stored. -/
def generationExpression (n : Nested) (words : String) : Rule Phrase := do
  let e ← parenthesized n.phrase
  let mode ← oneOfKeys? ["STORED", "VIRTUAL"]
  return .concat [.text (words ++ " ("), e, .text (")" ++ mode.elim "" (" " ++ ·))]

/-- What follows `GENERATED`.  The words are taken even where nothing comes of them. -/
def generated (n : Nested) : Rule (Option Phrase) := do
  if ← keys? ["ALWAYS", "AS", "IDENTITY"] then return some (← identitySequence "ALWAYS")
  if ← keys? ["BY", "DEFAULT", "AS", "IDENTITY"] then
    return some (← identitySequence "BY DEFAULT")
  if ← keys? ["ALWAYS", "AS"] then
    if ← nextIsSymbol .lparen then
      return some (← generationExpression n "GENERATED ALWAYS AS")
  return none

/-- What follows `IDENTITY`: nothing, or where to start and how far to step. -/
def identity : Rule Phrase := do
  if !(← symbol? .lparen) then return .text "IDENTITY"
  let seed ← signedNumber
  symbol .comma
  let increment ← signedNumber
  symbol .rparen
  return .text ("IDENTITY(" ++ seed ++ ", " ++ increment ++ ")")

/-! ## Named options -/

/-- The way in which the rows of a table are clustered. -/
def clusteredOption : Rule Phrase := do
  let columnstore := "CLUSTERED COLUMNSTORE INDEX"
  if ← keys? ["CLUSTERED", "COLUMNSTORE", "INDEX", "ORDER"] then
    return .concat [.text (columnstore ++ " ORDER ("), namesPhrase (← columnList), .text ")"]
  if ← keys? ["CLUSTERED", "COLUMNSTORE", "INDEX"] then return .text columnstore
  if ← keys? ["CLUSTERED", "INDEX"] then
    let columns ← parenthesized (commaSeparated do
      let name ← identifier
      let direction ← oneOfKeys? ["ASC", "DESC"]
      return .concat [.name [name], .text (direction.elim "" (" " ++ ·))])
    return .concat [.text "CLUSTERED INDEX (", .commas columns, .text ")"]
  fail .clusteredOption

/-- The way in which the rows of a table are split. -/
def partitionOption (n : Nested) : Rule Phrase := do
  key "PARTITION"
  symbol .lparen
  let column ← identifier
  key "RANGE"
  let direction ← oneOfKeys? ["LEFT", "RIGHT"]
  keys ["FOR", "VALUES"]
  let values ← parenthesized n.list
  symbol .rparen
  return .concat
    [.text "PARTITION (", .name [column],
     .text (" RANGE" ++ direction.elim "" (" " ++ ·) ++ " FOR VALUES ("), values, .text "))"]

/-- An option with a name and a value, or one with words of its own. -/
def namedOption (n : Nested) : Rule Phrase := do
  match ← peekKey with
  | some "HEAP" => return .name [← identifier]
  | some "PARTITION" => partitionOption n
  | some "CLUSTERED" => clusteredOption
  | _ =>
    let name ← identifier
    symbol .eq
    return .concat [.name [name], .text " = ", ← n.phrase]

def namedOptions (n : Nested) : Rule Phrase := do
  let options ← parenthesized (commaSeparatedUntil .rparen (namedOption n))
  return .concat [.text "OPTIONS(", .commas options, .text ")"]

/-! ## The options of a column -/

/-- An option of a column, if one follows. -/
def columnOption (n : Nested) : Rule (Option Phrase) := do
  let withExpression (words : String) : Rule (Option Phrase) := do
    return some (.concat [.text (words ++ " "), ← n.phrase])
  if ← keys? ["CHARACTER", "SET"] then
    return some (.concat [.text "CHARACTER SET ", .name (← dottedName)])
  if ← keys? ["NOT", "NULL"] then return some (.text "NOT NULL")
  if ← key? "COMMENT" then
    match ← quotedString? with
    | some s => return some (.concat [.text "COMMENT ", .literal (.string .plain s)])
    | none => expected .comment
  if ← key? "NULL" then return some (.text "NULL")
  if ← key? "DEFAULT" then return ← withExpression "DEFAULT"
  if ← key? "MATERIALIZED" then return ← withExpression "MATERIALIZED"
  if ← key? "ALIAS" then return ← withExpression "ALIAS"
  if ← key? "EPHEMERAL" then
    if (← nextIsSymbol .comma) || (← nextIsSymbol .rparen) then return some (.text "EPHEMERAL")
    return ← withExpression "EPHEMERAL"
  if ← keys? ["PRIMARY", "KEY"] then return some (.text ("PRIMARY KEY" ++ (← characteristics)))
  if ← key? "UNIQUE" then return some (.text ("UNIQUE" ++ (← characteristics)))
  if ← key? "REFERENCES" then return some (← foreignKey)
  if ← key? "CHECK" then
    return some (.concat [.text "CHECK (", ← parenthesized n.phrase, .text ")"])
  if let some k ← oneOfKeys? ["AUTO_INCREMENT", "AUTOINCREMENT", "ASC", "DESC"] then
    return some (.text k)
  if ← keys? ["ON", "UPDATE"] then return ← withExpression "ON UPDATE"
  if ← key? "GENERATED" then return ← generated n
  if ← key? "OPTIONS" then return some (← namedOptions n)
  if ← key? "AS" then return some (← generationExpression n "AS")
  if ← key? "IDENTITY" then return some (← identity)
  if ← keys? ["ON", "CONFLICT"] then
    let actions := ["ROLLBACK", "ABORT", "FAIL", "IGNORE", "REPLACE"]
    match ← oneOfKeys? actions with
    | some k => return some (.text ("ON CONFLICT " ++ k))
    | none => expected (.oneOf actions)
  return none

/-- The options of a column, each with a space before it, and its last collation.  Every option
takes a token, so the tokens that are left bound their number. -/
def columnOptionsIn (n : Nested) : Nat → Option (List Ident) → Rule (Option (List Ident) × Phrase)
  | 0, collation => return (collation, .empty)
  | fuel + 1, collation => do
    let constraint ← afterKey? "CONSTRAINT" identifier
    match ← columnOption n, constraint with
    | some option, _ =>
      let front := constraint.elim Phrase.empty fun name ↦
        .concat [.text "CONSTRAINT ", .name [name], .text " "]
      let (collation, rest) ← columnOptionsIn n fuel collation
      return (collation, .concat [.text " ", front, option, rest])
    | none, some _ => expected .namedConstraint
    | none, none =>
      if ← key? "COLLATE" then columnOptionsIn n fuel (some (← dottedName))
      else return (collation, .empty)

/-- What follows the type of a column. -/
def columnTail (n : Nested) : Rule Phrase := do
  let collation ← afterKey? "COLLATE" dottedName
  let (collation, options) ← columnOptionsIn n ((← size) + 1) collation
  let collationPart := collation.elim Phrase.empty fun name ↦
    .concat [.text " COLLATE ", .name name]
  return collationPart ++ options

end Funnel.Sql.Grammar
