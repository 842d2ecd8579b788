import Funnel.Sql.Grammar.Column

/-!
# Data types

The rule for the types of casts.  Types that SQL knows come out in their normal spelling, with
their sizes; any other name stands for itself.
-/

namespace Funnel.Sql.Grammar

open Rule

/-! ## Types of one word -/

/-- Types without a size, and their normal spelling. -/
def plainTypes : List (Keyword × String) :=
  [("BOOLEAN", "BOOLEAN"), ("BOOL", "BOOL"), ("REAL", "REAL"), ("FLOAT4", "FLOAT4"),
   ("FLOAT32", "Float32"), ("FLOAT64", "FLOAT64"), ("FLOAT8", "FLOAT8"), ("INT16", "Int16"),
   ("INT32", "Int32"), ("INT64", "INT64"), ("INT128", "Int128"), ("INT256", "Int256"),
   ("UINT8", "UInt8"), ("UINT16", "UInt16"), ("UINT32", "UInt32"), ("UINT64", "UInt64"),
   ("UINT128", "UInt128"), ("UINT256", "UInt256"), ("TINYBLOB", "TINYBLOB"),
   ("MEDIUMBLOB", "MEDIUMBLOB"), ("LONGBLOB", "LONGBLOB"), ("UUID", "UUID"), ("DATE", "DATE"),
   ("DATE32", "Date32"), ("JSON", "JSON"), ("JSONB", "JSONB"), ("REGCLASS", "REGCLASS"),
   ("TEXT", "TEXT"), ("TINYTEXT", "TINYTEXT"), ("MEDIUMTEXT", "MEDIUMTEXT"),
   ("LONGTEXT", "LONGTEXT"), ("BYTEA", "BYTEA"), ("TRIGGER", "TRIGGER")]

/-- Types that may have a size in parentheses. -/
def sizedTypes : List Keyword :=
  ["FLOAT", "CLOB", "BINARY", "VARBINARY", "BLOB", "BYTES", "DATETIME", "STRING"]

/-- Integer types, which may have a width and may be unsigned. -/
def integerTypes : List Keyword :=
  ["TINYINT", "INT2", "SMALLINT", "MEDIUMINT", "INT", "INT4", "INT8", "INTEGER", "BIGINT"]

/-- Types of decimal numbers, which may have a precision and a scale. -/
def decimalTypes : List Keyword := ["NUMERIC", "DECIMAL", "DEC", "BIGNUMERIC", "BIGDECIMAL"]

/-! ## Sizes -/

def sizeText (n : Nat) : String := "(" ++ toString n ++ ")"

/-- A size in parentheses; the empty text if there is none. -/
def optionalSize : Rule String := do
  if ← symbol? .lparen then
    let n ← literalInteger
    symbol .rparen
    return sizeText n
  else return ""

/-- A precision, or a precision and a scale. -/
def optionalPrecision : Rule String := do
  if ← symbol? .lparen then
    let precision ← literalInteger
    if ← symbol? .comma then
      let scale ← literalInteger
      symbol .rparen
      return "(" ++ toString precision ++ "," ++ toString scale ++ ")"
    else
      symbol .rparen
      return sizeText precision
  else return ""

/-- The length of a character type, with its unit. -/
def optionalLength : Rule String := do
  if ← symbol? .lparen then
    let length ← (do
      if ← key? "MAX" then return "MAX"
      let n ← literalInteger
      if ← key? "CHARACTERS" then return toString n ++ " CHARACTERS"
      if ← key? "OCTETS" then return toString n ++ " OCTETS"
      return toString n)
    symbol .rparen
    return "(" ++ length ++ ")"
  else return ""

/-- `WITH TIME ZONE`, `WITHOUT TIME ZONE` or nothing. -/
def optionalTimeZone : Rule String := do
  if ← key? "WITH" then
    keys ["TIME", "ZONE"]
    return " WITH TIME ZONE"
  if ← key? "WITHOUT" then
    keys ["TIME", "ZONE"]
    return " WITHOUT TIME ZONE"
  return ""

/-- `CHAR` and `CHARACTER` with what may follow them. -/
def characterType (word : String) : Rule String := do
  if ← key? "VARYING" then return word ++ " VARYING" ++ (← optionalLength)
  if ← keys? ["LARGE", "OBJECT"] then return word ++ " LARGE OBJECT" ++ (← optionalSize)
  return word ++ (← optionalLength)

/-! ## Lists of values -/

/-- A name in quotes as it stands in the list of an enumeration. -/
def member (s : String) : Phrase := .literal (.string .plain s)

/-- A member of an enumeration, which may have a number. -/
def enumMember : Rule Phrase := do
  let name ← literalString
  if ← symbol? .eq then return member name ++ .text (" = " ++ (← signedNumber))
  return member name

/-- The members of a set, up to the closing parenthesis. -/
def setMembersIn : Nat → Rule (List Phrase)
  | 0 => expected .aString
  | fuel + 1 => do
    match ← quotedString? with
    | none => expected .aString
    | some s =>
      if ← symbol? .comma then return member s :: (← setMembersIn fuel)
      if ← symbol? .rparen then return [member s]
      expected .listEnd

def setMembers : Rule (List Phrase) := do
  symbol .lparen
  setMembersIn ((← size) + 1)

/-! ## Types that the user defined -/

/-- The modifiers of a custom type, up to the closing parenthesis.  Commas may be missing or be
repeated. -/
def typeModifiersIn : Nat → Rule (List String)
  | 0 => expected .typeModifiers
  | n + 1 => do
    match ← peek with
    | some (.word name key) => skip; return (Token.word name key).text :: (← typeModifiersIn n)
    | some (.number numeral _) => skip; return numeral.text :: (← typeModifiersIn n)
    | some (.string .plain s) => skip; return s :: (← typeModifiersIn n)
    | some (.symbol .comma) => skip; typeModifiersIn n
    | some (.symbol .rparen) => skip; return []
    | _ => expected .typeModifiers

def customType : Rule DataType := do
  let name ← dottedName
  if ← symbol? .lparen then return .custom name (← typeModifiersIn ((← size) + 1))
  return .custom name []

/-! ## Types made of types

A type that ends in `>` may take one more `>` with it, because `>>` is one token.  The flag beside
a type says that it did. -/

/-- The `>` behind the parts of a type, unless the last part took it. -/
def closingAngle (taken : Bool) : Rule Bool := do
  if taken then return false
  if ← symbol? .gt then return false
  if ← symbol? .shiftRight then return true
  expected .closingAngle

/-- A type that must not have taken a `>` too many. -/
def balanced (inner : Rule (DataType × Bool)) : Rule DataType := do
  let (type, taken) ← inner
  if taken then fail (.unmatchedAngleAfter type.sql (← peek))
  return type

/-- A field of a structured type: a type, with a name before it if two words come first. -/
def structField (inner : Rule (DataType × Bool)) : Rule (Phrase × Bool) := do
  match ← peek, ← peekAt 1 with
  | some (.word _ _), some (.word _ _) =>
    let name ← identifier
    let (type, taken) ← inner
    return (.concat [.name [name], .text " ", type.phrase], taken)
  | _, _ =>
    let (type, taken) ← inner
    return (type.phrase, taken)

/-- The fields between the angle brackets of a structured type, and whether one more bracket was
taken.  Only the last field may take the closing one. -/
def structFieldsIn (inner : Rule (DataType × Bool)) (start : Option Nat) :
    Nat → Rule (List Phrase × Bool)
  | 0 => expected .dataType
  | n + 1 => do
    let (field, taken) ← structField inner
    if ← symbol? .comma then
      if taken then fail (.unmatchedAngle "in STRUCT definition" start)
      let (fields, taken) ← structFieldsIn inner start n
      return (field :: fields, taken)
    else return ([field], ← closingAngle taken)

/-- The fields of a structured type in angle brackets, behind its keyword; there may be none. -/
def structFields (inner : Rule (DataType × Bool)) (start : Option Nat) :
    Rule (Option Phrase × Bool) := do
  if ← symbol? .lt then
    let (fields, taken) ← structFieldsIn inner start ((← size) + 1)
    return (some (.concat [.text "<", .commas fields, .text ">"]), taken)
  else return (none, false)

/-- A field of a union: a name and a type. -/
def unionField (inner : Rule (DataType × Bool)) : Rule Phrase := do
  let name ← identifier
  return .concat [.name [name], .text " ", (← balanced inner).phrase]

/-- A column of a table within a column. -/
def nestedColumn (n : Nested) (inner : Rule (DataType × Bool)) : Rule Phrase := do
  let front ← unionField inner
  return front ++ (← columnTail n)

/-- A name and what stands in parentheses behind it. -/
def applied (name : String) (inside : Phrase) : Phrase :=
  .concat [.text (name ++ "("), inside, .text ")"]

/-- A type in parentheses behind the name of a type that wraps it. -/
def wrapping (name : String) (inner : Rule (DataType × Bool)) : Rule Phrase := do
  return applied name (← parenthesized (balanced inner)).phrase

/-- A type that begins with the keyword `k`, which has not been taken yet. -/
def keywordType (n : Nested) (inner : Rule (DataType × Bool)) (start : Option Nat) (k : Keyword) :
    Rule (DataType × Bool) := do
  let spelled (r : Rule Phrase) : Rule (DataType × Bool) := do
    skip
    return ((← r).toType, false)
  let known (r : Rule String) : Rule (DataType × Bool) := spelled (do return .text (← r))
  if let some spelling := plainTypes.lookup k then known (pure spelling)
  else if sizedTypes.contains k then known (do return k ++ (← optionalSize))
  else if integerTypes.contains k then
    known (do
      let width ← optionalSize
      if ← key? "UNSIGNED" then return k ++ width ++ " UNSIGNED" else return k ++ width)
  else if decimalTypes.contains k then known (do return k ++ (← optionalPrecision))
  else
    match k with
    | "DOUBLE" =>
      known (do if ← key? "PRECISION" then return "DOUBLE PRECISION" else return "DOUBLE")
    | "VARCHAR" | "NVARCHAR" => known (do return k ++ (← optionalLength))
    | "CHAR" | "CHARACTER" => known (characterType k)
    | "BIT" =>
      known (do
        if ← key? "VARYING" then return "BIT VARYING" ++ (← optionalSize)
        return "BIT" ++ (← optionalSize))
    | "TIMESTAMP" | "TIME" =>
      known (do
        let precision ← optionalSize
        return k ++ precision ++ (← optionalTimeZone))
    | "TIMESTAMPTZ" | "TIMETZ" => known (do return k ++ (← optionalSize))
    | "DATETIME64" =>
      known (parenthesized do
        let precision ← literalInteger
        if ← symbol? .comma then
          return "DateTime64(" ++ toString precision ++ ", '" ++ (← literalString) ++ "')"
        return "DateTime64" ++ sizeText precision)
    | "INTERVAL" => skip; return (.interval, false)
    | "FIXEDSTRING" => known (do return "FixedString" ++ sizeText (← parenthesized literalInteger))
    | "ENUM" | "ENUM8" | "ENUM16" =>
      spelled (do return applied k (.commas (← parenthesized (commaSeparated enumMember))))
    | "SET" => spelled (do return applied "SET" (.commas (← setMembers)))
    | "ARRAY" =>
      skip
      symbol .lt
      let (type, taken) ← inner
      let array := Phrase.concat [.text "ARRAY<", type.phrase, .text ">"]
      return (array.toType, ← closingAngle taken)
    | "STRUCT" =>
      skip
      let (fields, taken) ← structFields inner start
      return ((Phrase.text "STRUCT" ++ .optional fields).toType, taken)
    | "UNION" =>
      spelled (do
        return applied "UNION" (.commas (← parenthesized (commaSeparated (unionField inner)))))
    | "NULLABLE" => spelled (wrapping "Nullable" inner)
    | "LOWCARDINALITY" => spelled (wrapping "LowCardinality" inner)
    | "MAP" =>
      spelled (parenthesized do
        let key ← balanced inner
        symbol .comma
        return applied "Map" (.commas [key.phrase, (← balanced inner).phrase]))
    | "NESTED" =>
      spelled (do
        let columns ← parenthesized (commaSeparated (nestedColumn n inner))
        return applied "Nested" (.commas columns))
    | "TUPLE" =>
      spelled (do
        let fields ← parenthesized (commaSeparated (structField inner))
        return applied "Tuple" (.commas (fields.map Prod.fst)))
    | _ => return (← customType, false)

/-- The brackets behind a type, each of which makes an array of it. -/
def arraySuffixIn : Nat → DataType → Rule DataType
  | 0, type => pure type
  | fuel + 1, type => do
    if ← symbol? .lbracket then
      let bound ← attempt literalInteger
      symbol .rbracket
      let inside := match bound with
        | some b => toString b
        | none => ""
      arraySuffixIn fuel (type.phrase ++ .text ("[" ++ inside ++ "]")).toType
    else return type

/-- A type, and whether it took a `>` too many; types may be nested `depth` deep. -/
def dataTypeIn (n : Nested) : Nat → Rule (DataType × Bool)
  | 0 => expected .dataType
  | depth + 1 => do
    let start ← here
    let (type, taken) ← (do
      match ← peek with
      | some (.word _ (some k)) => keywordType n (dataTypeIn n depth) start k
      | some (.word _ none) => return (← customType, false)
      | _ => expected .dataType)
    return (← arraySuffixIn (← size) type, taken)

/-- A data type.  Nested types take tokens, so the tokens that are left bound the depth. -/
def dataType (n : Nested) : Rule DataType := do balanced (dataTypeIn n ((← size) + 1))

end Funnel.Sql.Grammar
