import Funnel.Sql.Token

/-!
# Syntax errors

Why a text is not an expression.  An error names its cause and, where it has one, its place; the
wording is `SyntaxError.message`, which needs the text again to turn a place into a line and a
column.
-/

namespace Funnel.Sql

/-- What the grammar was ready to read. -/
inductive Expectation
  | symbol (s : Symbol)
  | keyword (k : Keyword)
  | oneOf (ks : List Keyword)
  | expression
  | dataType
  | typeModifiers
  | closingAngle
  | integer
  | string
  | aString
  | value
  | concreteValue
  | namedValue
  | placeholder
  | identifier
  | identifierAfterAs
  | afterPeriod
  | nameAfterPeriod
  | notInfix
  | truthTest
  | queryBody
  | dateField
  | argumentOperator
  | frameUnits
  | frameBound
  | overflowFiller
  | overflowCount
  | afterNatural
  | outerJoin
  | afterCross
  | listEnd
  | columnList
  | literalNumber
  | comment
  | namedConstraint
  | referentialAction
  | likePattern
  | replacements
  | functionName
  | schemaName
  | tableName
  | skipOption
  | upperBound
  | repetition
  | fileFormat
deriving DecidableEq, Repr

def Expectation.text : Expectation → String
  | symbol s => s.text
  | keyword k => k
  | oneOf ks => "one of " ++ " or ".intercalate ks
  | expression => "an expression"
  | dataType => "a data type name"
  | typeModifiers => "type modifiers"
  | closingAngle => ">"
  | integer => "literal int"
  | string => "literal string"
  | aString => "a string"
  | value => "a value"
  | concreteValue => "a concrete value"
  | namedValue => "A value?"
  | placeholder => "placeholder"
  | identifier => "identifier"
  | identifierAfterAs => "an identifier after AS"
  | afterPeriod => "an identifier or a '*' after '.'"
  | nameAfterPeriod => "an identifier after '.'"
  | notInfix => "IN or BETWEEN after NOT"
  | truthTest => "[NOT] NULL or TRUE|FALSE or [NOT] DISTINCT FROM after IS"
  | queryBody => "SELECT, VALUES, or a subquery in the query body"
  | dateField => "date/time field"
  | argumentOperator => "argument operator"
  | frameUnits => "ROWS, RANGE, GROUPS"
  | frameBound => "PRECEDING or FOLLOWING"
  | overflowFiller => "either filler, WITH, or WITHOUT in LISTAGG"
  | overflowCount => "either WITH or WITHOUT in LISTAGG"
  | afterNatural => "a join type after NATURAL"
  | outerJoin => "LEFT, RIGHT, or FULL"
  | afterCross => "JOIN or APPLY after CROSS"
  | listEnd => ", or \x7d"
  | columnList => "a list of columns in parentheses"
  | literalNumber => "literal number"
  | comment => "string"
  | namedConstraint => "constraint details after CONSTRAINT <name>"
  | referentialAction => "one of RESTRICT, CASCADE, SET NULL, NO ACTION or SET DEFAULT"
  | likePattern => "ilike pattern"
  | replacements => "( after REPLACE but"
  | functionName => "a function identifier"
  | schemaName => "Schema name"
  | tableName => "Table name"
  | skipOption => "after match skip option"
  | upperBound => "\x7d or upper bound"
  | repetition => "quantifier range"
  | fileFormat => "fileformat"

/-- Why the text falls apart before it is split into tokens. -/
inductive LexicalFault
  | openString
  | openNumberedString
  | openCodePointString
  | cutEscape
  | badEscapeDigit (c : Char)
  | badCodePoint (n : Nat)
  | openName (quote : NameQuote)
  | openComment
  | openDollar
  | openTaggedDollar
deriving DecidableEq, Repr

def LexicalFault.text : LexicalFault → String
  | openString => "Unterminated string literal"
  | openNumberedString => "Unterminated encoded string literal"
  | openCodePointString => "Unterminated unicode encoded string literal"
  | cutEscape => "Unexpected EOF while parsing hex digit in escaped unicode string."
  | badEscapeDigit c => "Invalid hex digit in escaped unicode string: " ++ String.singleton c
  | badCodePoint n => "Invalid unicode character: " ++ String.ofList (Nat.toDigits 16 n)
  | openName quote =>
    "Expected close delimiter '" ++ String.singleton quote.char ++ "' before EOF."
  | openComment => "Unexpected EOF while in a multi-line comment"
  | openDollar => "Unterminated dollar-quoted string"
  | openTaggedDollar => "Unterminated dollar-quoted, expected $"

/-- How many bits a whole number may take. -/
inductive IntegerWidth
  | bits32
  | bits64
deriving DecidableEq, Repr

namespace IntegerWidth

/-- The least number that takes more bits. -/
def limit : IntegerWidth → Nat
  | bits32 => 4294967296
  | bits64 => 18446744073709551616

def text : IntegerWidth → String
  | bits32 => "u32"
  | bits64 => "u64"

end IntegerWidth

inductive SyntaxError
  /-- The text cannot be split into tokens; `left` characters follow the place of the fault. -/
  | lexical (fault : LexicalFault) (left : Nat)
  /-- Another token was expected; there is none at the end of the text. -/
  | expected (what : Expectation) (found : Option Lexeme)
  /-- Something other than a name follows the period behind a parenthesis. -/
  | notAField (found : Option Lexeme)
  /-- `ANY`, `ALL` or `SOME` follows an operator that does not compare. -/
  | notAComparison (operator : String) (left : Nat)
  /-- A token has a place among the operators but no meaning. -/
  | notAnOperator (description : String) (left : Nat)
  /-- A number is not an integer, or does not fit into the bits for it. -/
  | notAnInteger (digits : String) (width : IntegerWidth) (tooLarge : Bool) (left : Nat)
  /-- The expression is nested too deeply. -/
  | tooDeep
  | extractWithoutFrom
  | scaleNotANumber
  | allAndDistinct (left : Nat)
  | aliasInTypedStruct (left : Option Nat)
  | unmatchedAngle (what : String) (left : Option Nat)
  /-- A type took a `>` too many; the message shows the token behind it. -/
  | unmatchedAngleAfter (type : String) (next : Option Token)
  /-- A custom type cannot be followed by the text of a value. -/
  | customTypeLiteral
  /-- A selection begins with the word that opens its tables. -/
  | nothingSelected (word : String) (left : Option Nat)
  /-- A side is named for a join, but no join follows. -/
  | sideWithoutJoin (side : Keyword)
  | duplicateAlias (name : String)
  | xmlMode
  | jsonMode
  | clusteredOption
deriving DecidableEq, Repr

/-! ## Wording -/

/-- The line and the column of a place, both from one; `before` is the text in front of it. -/
def position (before : List Char) : Nat × Nat :=
  before.foldl (fun (line, column) c ↦ if c = '\n' then (line + 1, 1) else (line, column + 1))
    (1, 1)

/-- A place in words. -/
def place (source : String) (left : Nat) : String :=
  let cs := source.toList
  let (line, column) := position (cs.take (cs.length - left))
  s!" at Line: {line}, Column: {column}"

def optionalPlace (source : String) : Option Nat → String
  | none => ""
  | some left => place source left

/-- A token with its place; the end of the text has none. -/
def foundText (source : String) : Option Lexeme → String
  | none => "EOF"
  | some l => l.token.text ++ place source l.left

def SyntaxError.text (source : String) : SyntaxError → String
  | lexical fault left => fault.text ++ place source left
  | expected what found => s!"Expected: {what.text}, found: {foundText source found}"
  | notAField found => s!"Expected identifier, found: {foundText source found}"
  | notAComparison operator left =>
    "Expected one of [=, >, <, =>, =<, !=] as comparison operator, found: " ++ operator ++
      place source left
  | notAnOperator description left =>
    "No infix parser for token " ++ description ++ place source left
  | notAnInteger digits width tooLarge left =>
    "Could not parse '" ++ digits ++ "' as " ++ width.text ++ ": " ++
      (if tooLarge then "number too large to fit in target type"
       else "invalid digit found in string") ++ place source left
  | tooDeep => "recursion limit exceeded"
  | extractWithoutFrom => "Expected 'FROM' or ','"
  | scaleNotANumber => "Scale field can only be of number type"
  | allAndDistinct left => "Cannot specify both ALL and DISTINCT" ++ place source left
  | aliasInTypedStruct left => "Typed syntax does not allow AS" ++ optionalPlace source left
  | unmatchedAngle what left => "unmatched > " ++ what ++ optionalPlace source left
  | unmatchedAngleAfter type next =>
    "unmatched > after parsing data type " ++ type ++ (next.map Token.text).getD "EOF"
  | customTypeLiteral => "dummy"
  | nothingSelected word left =>
    "Expected an expression, found: " ++ word ++ optionalPlace source left
  | sideWithoutJoin side => "expected OUTER, SEMI, ANTI or JOIN after " ++ side
  | duplicateAlias name => "duplicate alias " ++ name
  | xmlMode => "Expected FOR XML [RAW | AUTO | EXPLICIT | PATH ]"
  | jsonMode => "Expected FOR JSON [AUTO | PATH ]"
  | clusteredOption => "invalid CLUSTERED sequence"

/-- The message for an error in the text `source`. -/
def SyntaxError.message (source : String) (e : SyntaxError) : String :=
  "sql parser error: " ++ e.text source

end Funnel.Sql
