import Funnel.Sql.Grammar.Query

/-!
# Forms with words of their own

Expressions that a keyword opens: conditional values, casts, the functions with words between
their arguments, subqueries and structured values.  The keyword of a form has been read when its
rule begins.
-/

namespace Funnel.Sql.Grammar

open Rule

/-- The form made of some phrases. -/
def form (ps : List Phrase) : Expr := (Phrase.concat ps).toExpr

/-! ## Conditions -/

/-- `CASE`: the conditions are visited before the results. -/
def caseForm (operand : Option Expr) (branches : List (Expr × Expr)) (otherwise : Option Expr) :
    Expr :=
  let first := operand.toList.length
  let count := branches.length
  let branch (i : Nat) : List Piece :=
    [.text " WHEN ", .gap (first + i), .text " THEN ", .gap (first + count + i)]
  .other
    ([.text "CASE"] ++ (if operand.isSome then [.text " ", .gap 0] else []) ++
      (List.range count).flatMap branch ++
      (if otherwise.isSome then [.text " ELSE ", .gap (first + 2 * count)] else []) ++
      [.text " END"])
    (operand.toList ++ branches.map Prod.fst ++ branches.map Prod.snd ++ otherwise.toList)

def caseExpression (n : Nested) : Rule Expr := do
  let operand ← (do
    if ← key? "WHEN" then return none
    let e ← n.expression
    key "WHEN"
    return some e)
  let branch : Rule (Expr × Expr) := do
    let condition ← n.expression
    key "THEN"
    return (condition, ← n.expression)
  let branches ← separatedIn (key? "WHEN") branch (← size)
  let otherwise ← afterKey? "ELSE" n.expression
  key "END"
  return caseForm operand branches otherwise

/-- `EXISTS` with its query. -/
def existsForm (n : Nested) (negated : Bool) : Rule Expr := do
  let q ← parenthesized n.query
  return form [.text (negation negated ++ "EXISTS ("), q, .text ")"]

/-- `NOT`, which takes `EXISTS` to itself.  Its operand binds more tightly than level 15. -/
def notExpression (n : Nested) : Rule Expr := do
  if ← key? "EXISTS" then existsForm n true else return .unary .not (← n.expr 15)

/-! ## Casts and conversions -/

/-- The format of a cast. -/
def castFormat : Rule (Option Phrase) := do
  if !(← key? "FORMAT") then return none
  let v ← value
  if ← keys? ["AT", "TIME", "ZONE"] then
    let zone ← value
    return some (.concat [.text " FORMAT ", .expr (.literal v), .text " AT TIME ZONE ",
      .expr (.literal zone)])
  return some (.concat [.text " FORMAT ", .expr (.literal v)])

/-- A cast; a plain one is understood, and its format is dropped. -/
def castExpression (n : Nested) (word : Keyword) : Rule Expr :=
  parenthesized do
    let e ← n.expression
    key "AS"
    let type ← dataType n
    let format ← castFormat
    let written := Phrase.concat
      [.text (word ++ "("), .expr e, .text " AS ", .type type, .optional format, .text ")"]
    if word != "CAST" then return written.toExpr
    if format.isSome then return written.keeping (.cast .function e type)
    return .cast .function e type

/-- `CONVERT` to a character set or to a type. -/
def convertExpression (n : Nested) (word : Keyword) : Rule Expr :=
  parenthesized do
    let e ← n.expression
    if ← key? "USING" then
      let charset ← dottedName
      return form [.text (word ++ "("), .expr e, .text " USING ", .name charset, .text ")"]
    symbol .comma
    let type ← dataType n
    let charset ← (do
      if ← keys? ["CHARACTER", "SET"] then
        return .concat [.text " CHARACTER SET ", .name (← dottedName)]
      return .empty)
    return form [.text (word ++ "("), .expr e, .text ", ", .type type, charset, .text ")"]

/-! ## Functions with words between their arguments -/

def extractExpression (n : Nested) : Rule Expr :=
  parenthesized do
    let field ← dateField
    let separator ← (do
      if ← key? "FROM" then return " FROM "
      if ← symbol? .comma then return ", "
      fail .extractWithoutFrom)
    return form [.text "EXTRACT(", field, .text separator, ← n.phrase, .text ")"]

/-- `CEIL` and `FLOOR`, to a field of a date or to a number of digits. -/
def roundingExpression (n : Nested) (word : Keyword) : Rule Expr :=
  parenthesized do
    let e ← n.expression
    let unit ← (do
      if ← key? "TO" then return .concat [.text " TO ", ← dateField]
      if ← symbol? .comma then
        match ← value with
        | .number scale long => return .concat [.text ", ", .expr (.literal (.number scale long))]
        | _ => fail .scaleNotANumber
      return .empty)
    return form [.text (word ++ "("), .expr e, unit, .text ")"]

/-- `POSITION` with `IN`, or else a call of that name. -/
def positionExpression (n : Nested) (name : Ident) : Rule Expr := do
  let found ← attempt (parenthesized do
    let part ← n.expr 20
    key "IN"
    let whole ← n.expression
    return form [.text "POSITION(", .expr part, .text " IN ", .expr whole, .text ")"])
  match found with
  | some e => return e
  | none => return (← call n [name]).toExpr

/-- `SUBSTRING`, with words or with commas. -/
def substringExpression (n : Nested) : Rule Expr :=
  parenthesized do
    let e ← n.expression
    let commas ← symbol? .comma
    let start ← (do
      if commas then return some (← n.phrase)
      afterKey? "FROM" n.phrase)
    let count ← (do
      if ← key? "FOR" then return some (← n.phrase)
      if ← symbol? .comma then return some (← n.phrase)
      return none)
    let lead (word : String) (p : Option Phrase) : Phrase :=
      .optional (p.map fun p ↦ .concat [.text (if commas then ", " else word), p])
    return form [.text "SUBSTRING(", .expr e, lead " FROM " start, lead " FOR " count, .text ")"]

def overlayExpression (n : Nested) : Rule Expr :=
  parenthesized do
    let e ← n.expression
    key "PLACING"
    let what ← n.expression
    key "FROM"
    let start ← n.expression
    let count ← afterKey? "FOR" n.phrase
    return form
      [.text "OVERLAY(", .expr e, .text " PLACING ", .expr what, .text " FROM ", .expr start,
       .optional (count.map fun p ↦ .concat [.text " FOR ", p]), .text ")"]

/-- `TRIM`: the trimmed text is visited before the characters that are written in front of it. -/
def trimExpression (n : Nested) : Rule Expr :=
  parenthesized do
    let side ← oneOfKeys? ["BOTH", "LEADING", "TRAILING"]
    let sideText := side.elim "" (· ++ " ")
    let e ← n.expression
    if ← key? "FROM" then
      let whole ← n.expression
      return .other [.text ("TRIM(" ++ sideText), .gap 1, .text " FROM ", .gap 0, .text ")"]
        [whole, e]
    if ← symbol? .comma then
      let characters ← n.list
      return form [.text "TRIM(", .expr e, .text ", ", characters, .text ")"]
    return form [.text ("TRIM(" ++ sideText), .expr e, .text ")"]

/-- The modes of a full-text search. -/
def searchMode : Rule String := do
  let expansion := ["WITH", "QUERY", "EXPANSION"]
  if ← keys? ["IN", "NATURAL", "LANGUAGE", "MODE"] then
    if ← keys? expansion then return " IN NATURAL LANGUAGE MODE WITH QUERY EXPANSION"
    return " IN NATURAL LANGUAGE MODE"
  if ← keys? ["IN", "BOOLEAN", "MODE"] then return " IN BOOLEAN MODE"
  if ← keys? expansion then return " WITH QUERY EXPANSION"
  return ""

/-- A full-text search; its columns are names and no expressions. -/
def matchExpression : Rule Expr := do
  let columns ← columnList
  key "AGAINST"
  parenthesized do
    let v ← value
    let mode ← searchMode
    return form
      [.text "MATCH (", namesPhrase columns, .text ") AGAINST (",
       .expr (.literal v), .text (mode ++ ")")]

/-! ## Structured values -/

/-- The elements of an array, behind the opening bracket. -/
def arrayExpression (n : Nested) (word : String) : Rule Expr := do
  let items ← commaSeparatedUntil .rbracket n.phrase
  symbol .rbracket
  return form [.text (word ++ "["), .commas items, .text "]"]

/-- An array made by a query. -/
def arrayQuery (n : Nested) (name : Ident) : Rule Expr := do
  let q ← parenthesized n.query
  return form [.name [name], .text "(", q, .text ")"]

/-- A value of a structured type; a field has a name where the type does not give one. -/
def structExpression (n : Nested) (start : Option Nat) : Rule Expr := do
  let (fields, taken) ← structFields (dataTypeIn n (← size)) start
  if taken then fail (.unmatchedAngle "in STRUCT literal" (← here))
  let item : Rule Phrase := do
    let e ← n.expression
    if ← nextIsKey "AS" then
      if fields.isSome then fail (.aliasInTypedStruct (← here))
      skip
      return .concat [.expr e, .text " AS ", .name [← identifier]]
    return .expr e
  let items ← parenthesized (commaSeparated item)
  let type := (Phrase.text "STRUCT" ++ .optional fields).toType
  return form [.type type, .text "(", .commas items, .text ")"]

/-- An entry of a map or a dictionary. -/
def entry (n : Nested) (entryKey : Rule Phrase) : Rule Phrase := do
  let k ← entryKey
  symbol .colon
  return .concat [k, .text ": ", ← n.phrase]

/-- Entries in braces. -/
def entries (n : Nested) (entryKey : Rule Phrase) : Rule Phrase := do
  symbol .lbrace
  let items ← commaSeparatedUntil .rbrace (entry n entryKey)
  symbol .rbrace
  return .concat [.text "\x7b", .commas items, .text "\x7d"]

def mapExpression (n : Nested) : Rule Expr := do
  return form [.text "MAP ", ← entries n n.phrase]

/-- What stands in braces: a call behind `fn`, of which the filter keeps the call, or a
dictionary. -/
def bracesExpression (n : Nested) : Rule Expr := do
  let escape : Rule Call := do
    symbol .lbrace
    key "FN"
    let name ← dottedName
    call n name
  match ← attempt escape with
  | some c =>
    symbol .rbrace
    let written := Phrase.concat [.text "\x7bfn ", c.written, .text "\x7d"]
    return Call.toExpr ⟨written, c.plain?, false⟩
  | none => return (← entries n (do return .name [← identifier])).toExpr

/-! ## The choice of a form -/

/-- The form that a keyword opens, if it opens one; `name` is the keyword as it was written. -/
def keywordForm (n : Nested) (start : Option Nat) (name : Ident) (k : Keyword) :
    Rule (Option Expr) := do
  let found (r : Rule Expr) : Rule (Option Expr) := do return some (← r)
  match k with
  | "TRUE" => return some (.literal (.boolean true))
  | "FALSE" => return some (.literal (.boolean false))
  | "NULL" => return some (.literal .null)
  | "CURRENT_CATALOG" | "CURRENT_USER" | "SESSION_USER" | "USER" =>
    return some (Phrase.name [name]).toExpr
  | "CURRENT_TIMESTAMP" | "CURRENT_TIME" | "CURRENT_DATE" | "LOCALTIME" | "LOCALTIMESTAMP" =>
    found (currentValue n name)
  | "CASE" => found (caseExpression n)
  | "CONVERT" | "TRY_CONVERT" => found (convertExpression n k)
  | "CAST" | "TRY_CAST" | "SAFE_CAST" => found (castExpression n k)
  | "EXISTS" => found (existsForm n false)
  | "EXTRACT" => found (extractExpression n)
  | "CEIL" | "FLOOR" => found (roundingExpression n k)
  | "POSITION" =>
    if ← nextIsSymbol .lparen then found (positionExpression n name) else return none
  | "SUBSTRING" => found (substringExpression n)
  | "OVERLAY" => found (overlayExpression n)
  | "TRIM" => found (trimExpression n)
  | "INTERVAL" => found (interval n)
  | "ARRAY" =>
    if ← symbol? .lbracket then found (arrayExpression n "ARRAY")
    else if ← nextIsSymbol .lparen then found (arrayQuery n name)
    else return none
  | "NOT" => found (notExpression n)
  | "MATCH" => found matchExpression
  | "STRUCT" => found (structExpression n start)
  | "PRIOR" =>
    if n.inHierarchy then return some (form [.text "PRIOR ", .expr (← n.expr 30)]) else return none
  | "MAP" => if ← nextIsSymbol .lbrace then found (mapExpression n) else return none
  | _ => return none

/-- The keywords that never stand for a name: an error in their form is final. -/
def properKeywords : List Keyword := ["EXISTS", "INTERVAL", "STRUCT", "TRIM"]

end Funnel.Sql.Grammar
