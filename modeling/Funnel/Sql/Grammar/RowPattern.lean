import Funnel.Sql.Grammar.Naming

/-!
# Patterns of rows

`MATCH_RECOGNIZE` looks for runs of rows in a table.  The runs are described by a pattern, which is
a regular expression over names; each name stands for a condition on a row.
-/

namespace Funnel.Sql.Grammar

open Rule

/-! ## Repetitions -/

/-- What follows `{` in the bounds of a repetition, up to `}`.  The bounds are read as numbers when
all of them are there, and a fault in any of them is shown at the first token. -/
def repetitionBounds : Rule String := do
  let left := (← here).getD 0
  let number (n : Numeral) : Rule String := do
    return toString (← wholeNumber .bits32 n.text left)
  if ← symbol? .comma then
    match ← peek with
    | some (.number most _) =>
      skip
      symbol .rbrace
      return "," ++ (← number most)
    | _ => expected .literalNumber
  match ← peek with
  | some (.number least _) =>
    skip
    if ← symbol? .comma then
      match ← peek with
      | some (.number most _) =>
        skip
        symbol .rbrace
        return (← number least) ++ "," ++ (← number most)
      | some (.symbol .rbrace) => skip; return (← number least) ++ ","
      | _ => expected .upperBound
    else
      symbol .rbrace
      number least
  | _ => expected .repetition

/-- How often the part in front may be repeated; nothing if no repetition follows. -/
def repetition? : Rule (Option String) := do
  match ← peek with
  | some (.symbol .times) => skip; return some "*"
  | some (.symbol .plus) => skip; return some "+"
  | some (.placeholder "?") => skip; return some "?"
  | some (.symbol .lbrace) => skip; return some ("\x7b" ++ (← repetitionBounds) ++ "\x7d")
  | _ => return none

/-- The repetitions behind a part.  Each takes a token, so the tokens that are left bound their
number. -/
def repetitionsIn : Nat → Rule String
  | 0 => return ""
  | fuel + 1 => do
    match ← repetition? with
    | some r => return r ++ (← repetitionsIn fuel)
    | none => return ""

/-! ## Patterns -/

/-- A part of a pattern without a repetition, given the rule for whole patterns. -/
def patternPart (pattern : Rule String) : Rule String := do
  match ← peek with
  | some (.symbol .caret) => skip; return "^"
  | some (.placeholder "$") => skip; return "$"
  | some (.symbol .lbrace) =>
    skip
    symbol .minus
    let name ← identifier
    symbol .minus
    symbol .rbrace
    return "\x7b- " ++ name.sql ++ " -\x7d"
  | some (.word ⟨"PERMUTE", none, _⟩ _) =>
    skip
    let names ← parenthesized (commaSeparated identifier)
    return "PERMUTE(" ++ ", ".intercalate (names.map Ident.sql) ++ ")"
  | some (.symbol .lparen) => return "( " ++ (← parenthesized pattern) ++ " )"
  | _ => return (← identifier).sql

/-- Parts in a row, up to a closing parenthesis or a bar. -/
def patternRowIn (pattern : Rule String) : Nat → Rule String
  | 0 => expected .identifier
  | fuel + 1 => do
    let part ← patternPart pattern
    let part := part ++ (← repetitionsIn (← size))
    if (← nextIsSymbol .rparen) || (← nextIsSymbol .pipe) then return part
    else return part ++ " " ++ (← patternRowIn pattern fuel)

/-- A pattern: rows of parts with bars between them.  Every bar and every parenthesis takes one of
`fuel` steps. -/
def patternIn : Nat → Rule String
  | 0 => expected .identifier
  | fuel + 1 => do
    let row ← patternRowIn (patternIn fuel) ((← size) + 1)
    if ← symbol? .pipe then return row ++ " | " ++ (← patternIn fuel) else return row

/-! ## The clauses -/

/-- What a table gives for each run that is found. -/
def rowsPerMatch : Rule String := do
  if ← keys? ["ONE", "ROW", "PER", "MATCH"] then return "ONE ROW PER MATCH "
  if ← keys? ["ALL", "ROWS", "PER", "MATCH"] then
    if ← keys? ["SHOW", "EMPTY", "MATCHES"] then return "ALL ROWS PER MATCH SHOW EMPTY MATCHES "
    if ← keys? ["OMIT", "EMPTY", "MATCHES"] then return "ALL ROWS PER MATCH OMIT EMPTY MATCHES "
    if ← keys? ["WITH", "UNMATCHED", "ROWS"] then return "ALL ROWS PER MATCH WITH UNMATCHED ROWS "
    return "ALL ROWS PER MATCH "
  return ""

/-- Where to go on behind a run. -/
def skipAfterMatch : Rule String := do
  if !(← keys? ["AFTER", "MATCH", "SKIP"]) then return ""
  if ← keys? ["PAST", "LAST", "ROW"] then return "AFTER MATCH SKIP PAST LAST ROW "
  if ← keys? ["TO", "NEXT", "ROW"] then return "AFTER MATCH SKIP  TO NEXT ROW "
  if ← keys? ["TO", "FIRST"] then return "AFTER MATCH SKIP TO FIRST " ++ (← identifier).sql ++ " "
  if ← keys? ["TO", "LAST"] then return "AFTER MATCH SKIP TO LAST " ++ (← identifier).sql ++ " "
  expected .skipOption

/-- A value that is taken from a run, with its name. -/
def measure (n : Nested) : Rule Phrase := do
  let e ← n.phrase
  let _ ← key? "AS"
  return .concat [e, .text " AS ", .name [← identifier]]

/-- The condition that a name of the pattern stands for. -/
def rowCondition (n : Nested) : Rule Phrase := do
  let name ← identifier
  key "AS"
  return .concat [.name [name], .text " AS ", ← n.phrase]

/-- The search for runs of rows, behind its keyword. -/
def matchRecognize (n : Nested) : Rule Phrase := do
  let lead (word : String) (p : Option Phrase) : Phrase :=
    p.elim .empty fun p ↦ .concat [.text word, p, .text " "]
  symbol .lparen
  let partition ← afterKeys? ["PARTITION", "BY"] n.list
  let order ← afterKeys? ["ORDER", "BY"] (orderItems n)
  let measures ← afterKey? "MEASURES" (do return .commas (← commaSeparated (measure n)))
  let rows ← rowsPerMatch
  let after ← skipAfterMatch
  key "PATTERN"
  let pattern ← parenthesized do patternIn ((← size) + 1)
  key "DEFINE"
  let conditions ← commaSeparated (rowCondition n)
  symbol .rparen
  return .concat
    [.text " MATCH_RECOGNIZE(", lead "PARTITION BY " partition, lead "ORDER BY " order,
     lead "MEASURES " measures, .text (rows ++ after ++ "PATTERN (" ++ pattern ++ ") DEFINE "),
     .commas conditions, .text ")"]

end Funnel.Sql.Grammar
