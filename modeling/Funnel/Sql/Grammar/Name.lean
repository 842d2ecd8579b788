import Funnel.Sql.Grammar.Rule

/-!
# Names, values and fields

The small rules of the grammar: names with and without dots, literal values where nothing but a
value can stand, whole numbers, and the fields of dates.
-/

namespace Funnel.Sql.Grammar

open Rule

/-! ## Names -/

/-- A name: a word, even if it spells a keyword, or a string in quotes. -/
def identifier : Rule Ident := do
  match ← peek with
  | some (.word name _) => skip; return name
  | some (.string .plain s) => skip; return .quoted .single s
  | _ => expected .identifier

/-- Names with periods between them. -/
def dottedName : Rule (List Ident) := do
  separatedIn (symbol? .period) identifier (← size)

/-- Names of columns in parentheses. -/
def columnList : Rule (List Ident) := do
  if ← symbol? .lparen then
    let columns ← commaSeparated identifier
    symbol .rparen
    return columns
  else expected .columnList

/-- Names of columns in parentheses; none without them. -/
def optionalColumnList : Rule (List Ident) := do
  if ← nextIsSymbol .lparen then columnList else return []

/-- Names in a row, as a phrase. -/
def namesPhrase (names : List Ident) : Phrase := .commas (names.map fun name ↦ .name [name])

/-! ## Values -/

/-- The part of a placeholder behind a colon or an `@`. -/
def placeholderName : Rule String := do
  match ← peek with
  | some (.word name _) => skip; return name.text
  | some (.number n false) => skip; return n.text
  | _ => expected .placeholder

/-- A literal value. -/
def value : Rule Literal := do
  match ← peek with
  | some (.word _ (some "TRUE")) => skip; return .boolean true
  | some (.word _ (some "FALSE")) => skip; return .boolean false
  | some (.word _ (some "NULL")) => skip; return .null
  | some (.word ⟨text, some .double, _⟩ _) => skip; return .string .doubleQuoted text
  | some (.word ⟨_, some _, _⟩ _) => expected .namedValue
  | some (.word _ _) => expected .concreteValue
  | some (.number n long) => skip; return .number n long
  | some (.string style s) => skip; return .string style s
  | some (.placeholder text) => skip; return .placeholder text
  | some (.symbol .colon) => skip; return .placeholder (":" ++ (← placeholderName))
  | some (.symbol .atSign) => skip; return .placeholder ("@" ++ (← placeholderName))
  | _ => expected .value

/-- A number or a placeholder, which may stand for one. -/
def numberValue : Rule Literal := fun ts ↦
  match value ts with
  | .error e => .error e
  | .ok (.number n long, rest) => .ok (.number n long, rest)
  | .ok (.placeholder text, rest) => .ok (.placeholder text, rest)
  | .ok _ => .error (.expected .literalNumber ts.head?)

/-- A number with a sign perhaps, as it is written. -/
def signedNumber : Rule String := do
  let sign ← (do
    if ← symbol? .plus then return "+"
    if ← symbol? .minus then return "-"
    return "")
  return sign ++ (← numberValue).sql

/-- A string in single quotes, if one is next. -/
def quotedString? : Rule (Option String) := do
  match ← peek with
  | some (.string .plain s) => skip; return some s
  | _ => return none

/-- The text of a string; a plain word can take its place. -/
def literalString : Rule String := do
  match ← peek with
  | some (.word name none) => skip; return name.text
  | some (.string .plain s) => skip; return s
  | some (.string .escaped s) => skip; return s
  | some (.string .codePoints s) => skip; return s
  | _ => expected .string

/-- The fault of a text that is no whole number below a limit. -/
inductive IntegerFault
  | badDigit
  | tooLarge
deriving DecidableEq, Repr

/-- Reads a whole number below a limit from left to right, so that the first fault counts; `n` is
what the digits in front spell. -/
def readInteger (limit : Nat) (n : Nat) : List Char → Except IntegerFault Nat
  | [] => .ok n
  | c :: cs =>
    if !c.isDigit then .error .badDigit
    else
      let next := n * 10 + (c.toNat - '0'.toNat)
      if next < limit then readInteger limit next cs else .error .tooLarge

/-- The whole number that digits spell; a fault of theirs is shown at the place `left`. -/
def wholeNumber (width : IntegerWidth) (digits : String) (left : Nat) : Rule Nat :=
  match readInteger width.limit 0 digits.toList with
  | .ok n => return n
  | .error fault => fail (.notAnInteger digits width (fault == .tooLarge) left)

/-- A whole number below 2^64. -/
def literalInteger : Rule Nat := do
  let left ← here
  match ← peek with
  | some (.number n _) => skip; wholeNumber .bits64 n.text (left.getD 0)
  | _ => expected .integer

/-! ## Date fields -/

/-- The words that name a field of a date, beside `WEEK`. -/
def dateFields : List Keyword :=
  ["YEAR", "MONTH", "DAY", "DAYOFWEEK", "DAYOFYEAR", "DATE", "DATETIME", "HOUR", "MINUTE",
   "SECOND", "CENTURY", "DECADE", "DOY", "DOW", "EPOCH", "ISODOW", "ISOYEAR", "ISOWEEK", "JULIAN",
   "MICROSECOND", "MICROSECONDS", "MILLENIUM", "MILLENNIUM", "MILLISECOND", "MILLISECONDS",
   "NANOSECOND", "NANOSECONDS", "QUARTER", "TIME", "TIMEZONE", "TIMEZONE_ABBR", "TIMEZONE_HOUR",
   "TIMEZONE_MINUTE", "TIMEZONE_REGION"]

/-- The words that can name the unit of an interval. -/
def intervalUnits : List Keyword :=
  ["YEAR", "MONTH", "WEEK", "DAY", "HOUR", "MINUTE", "SECOND", "CENTURY", "DECADE", "DOW", "DOY",
   "EPOCH", "ISODOW", "ISOYEAR", "JULIAN", "MICROSECOND", "MICROSECONDS", "MILLENIUM",
   "MILLENNIUM", "MILLISECOND", "MILLISECONDS", "NANOSECOND", "NANOSECONDS", "QUARTER",
   "TIMEZONE", "TIMEZONE_HOUR", "TIMEZONE_MINUTE"]

/-- A field of a date.  A week may name the day it starts on, and any other name stands for a
field that only the database knows. -/
def dateField : Rule Phrase := do
  match ← peek with
  | some (.word _ (some "WEEK")) =>
    skip
    if ← symbol? .lparen then
      let day ← identifier
      symbol .rparen
      return .concat [.text "WEEK(", .name [day], .text ")"]
    else return .text "WEEK"
  | some (.word name key) =>
    skip
    match key with
    | some k => if dateFields.contains k then return .text k else return .name [name]
    | none => return .name [name]
  | some (.string .plain s) => skip; return .name [.quoted .single s]
  | _ => expected .dateField

end Funnel.Sql.Grammar
