import Funnel.Json.Value
import Funnel.Text.Escape

/-!
# Reading JSON

A strict reader: one value, with white space around it and nothing else.  Each function takes the
text from where it stands and returns what it read together with the rest.
-/

namespace Funnel.Json

open Text.Escape (hexDigit?)

/-- The white space of JSON. -/
def isSpace (c : Char) : Bool := c == ' ' || c == '\t' || c == '\n' || c == '\r'

def skipSpace (cs : List Char) : List Char := cs.dropWhile isSpace

/-! ## Strings -/

/-- The element of a string with this UTF-16 unit. -/
def Point.ofUnit (n : Nat) : Point :=
  if h : 0xD800 ≤ n ∧ n < 0xE000 then .half ⟨n - 0xD800, by omega⟩ else .char (Char.ofNat n)

/-- The character that a one-letter escape stands for. -/
def shortEscape? : Char → Option Char
  | '\x22' => some '\x22'
  | '\\' => some '\\'
  | '/' => some '/'
  | 'b' => some '\x08'
  | 'f' => some '\x0c'
  | 'n' => some '\n'
  | 'r' => some '\r'
  | 't' => some '\t'
  | _ => none

/-- The number that four hexadecimal digits denote. -/
def unit? (a b c d : Char) : Option Nat := do
  return (((← hexDigit? a) * 16 + (← hexDigit? b)) * 16 + (← hexDigit? c)) * 16 + (← hexDigit? d)

/-- The rest of a string, from behind its opening quote.  Control characters must be escaped. -/
def readString? : List Char → Option (List Point × List Char)
  | [] => none
  | '\x22' :: rest => some ([], rest)
  | '\\' :: 'u' :: a :: b :: c :: d :: rest => do
    let point := Point.ofUnit (← unit? a b c d)
    let (points, rest) ← readString? rest
    return (point :: points, rest)
  | '\\' :: e :: rest => do
    let c ← shortEscape? e
    let (points, rest) ← readString? rest
    return (.char c :: points, rest)
  | c :: rest =>
    if c = '\\' ∨ c < ' ' then none
    else (readString? rest).map fun (points, rest) ↦ (.char c :: points, rest)

/-! ## Numbers -/

/-- A run of at least one digit. -/
def readDigits? (cs : List Char) : Option (List Char × List Char) :=
  let ds := cs.takeWhile Char.isDigit
  if ds.isEmpty then none else some (ds, cs.drop ds.length)

/-- The digits before the point; a leading zero stands alone. -/
def readWhole? (cs : List Char) : Option (List Char × List Char) := do
  let (ds, rest) ← readDigits? cs
  if ds.head? = some '0' ∧ ds ≠ ['0'] then none else return (ds, rest)

/-- The point and the digits behind it, if there is a point. -/
def readFraction? : List Char → Option (List Char × List Char)
  | '.' :: cs => (readDigits? cs).map fun (ds, rest) ↦ ('.' :: ds, rest)
  | cs => some ([], cs)

/-- The digits of an exponent, with their sign. -/
def readPower? : List Char → Option (List Char × List Char)
  | '+' :: cs => (readDigits? cs).map fun (ds, rest) ↦ ('+' :: ds, rest)
  | '-' :: cs => (readDigits? cs).map fun (ds, rest) ↦ ('-' :: ds, rest)
  | cs => readDigits? cs

/-- The exponent, if there is one. -/
def readExponent? : List Char → Option (List Char × List Char)
  | 'e' :: cs => (readPower? cs).map fun (ds, rest) ↦ ('e' :: ds, rest)
  | 'E' :: cs => (readPower? cs).map fun (ds, rest) ↦ ('E' :: ds, rest)
  | cs => some ([], cs)

/-- A number without its sign. -/
def readUnsigned? (cs : List Char) : Option (List Char × List Char) := do
  let (whole, cs) ← readWhole? cs
  let (fraction, cs) ← readFraction? cs
  let (exponent, cs) ← readExponent? cs
  return (whole ++ fraction ++ exponent, cs)

def readNumber? : List Char → Option (List Char × List Char)
  | '-' :: cs => (readUnsigned? cs).map fun (ds, rest) ↦ ('-' :: ds, rest)
  | cs => readUnsigned? cs

/-! ## Values -/

mutual

/-- A value at the head of a text.  An item costs two steps at most and uses up a character at
least, so that twice the length of the text is enough fuel. -/
def readValue? : Nat → List Char → Option (Value × List Char)
  | 0, _ => none
  | fuel + 1, cs =>
    match skipSpace cs with
    | 'n' :: 'u' :: 'l' :: 'l' :: rest => some (.null, rest)
    | 't' :: 'r' :: 'u' :: 'e' :: rest => some (.boolean true, rest)
    | 'f' :: 'a' :: 'l' :: 's' :: 'e' :: rest => some (.boolean false, rest)
    | '\x22' :: rest => (readString? rest).map fun (points, rest) ↦ (.string points, rest)
    | '[' :: rest =>
      match skipSpace rest with
      | ']' :: rest => some (.array [], rest)
      | rest => (readItems? fuel rest).map fun (items, rest) ↦ (.array items, rest)
    | '\x7b' :: rest =>
      match skipSpace rest with
      | '\x7d' :: rest => some (.object [], rest)
      | rest => (readMembers? fuel rest).map fun (members, rest) ↦ (.object members, rest)
    | cs => (readNumber? cs).map fun (literal, rest) ↦ (.number (String.ofList literal), rest)

/-- The items of an array, up to the closing bracket. -/
def readItems? : Nat → List Char → Option (List Value × List Char)
  | 0, _ => none
  | fuel + 1, cs => do
    let (item, rest) ← readValue? fuel cs
    match skipSpace rest with
    | ']' :: rest => return ([item], rest)
    | ',' :: rest =>
      let (items, rest) ← readItems? fuel rest
      return (item :: items, rest)
    | _ => none

/-- The members of an object, up to the closing brace. -/
def readMembers? : Nat → List Char → Option (List (List Point × Value) × List Char)
  | 0, _ => none
  | fuel + 1, cs => do
    let .cons '\x22' rest := skipSpace cs | none
    let (key, rest) ← readString? rest
    let .cons ':' rest := skipSpace rest | none
    let (value, rest) ← readValue? fuel rest
    match skipSpace rest with
    | '\x7d' :: rest => return ([(key, value)], rest)
    | ',' :: rest =>
      let (members, rest) ← readMembers? fuel rest
      return ((key, value) :: members, rest)
    | _ => none

end

/-- The value that a text is. -/
def read? (source : String) : Option Value := do
  let cs := source.toList
  let (value, rest) ← readValue? (2 * cs.length + 1) cs
  if (skipSpace rest).isEmpty then return value else none

end Funnel.Json
