import Funnel.Json.Value

/-!
# Writing JSON

Values are written with one item or member to a line, indented by two blanks for each level.  In
strings only quotes, backslashes and control characters are escaped.
-/

namespace Funnel.Json

def hexDigits : List Char := "0123456789abcdef".toList

/-- The last hexadecimal digit of a number. -/
def lastHexDigit (n : Nat) : Char := hexDigits.getD (n % 16) '0'

def numbered (n : Nat) : List Char :=
  ['\\', 'u', lastHexDigit (n / 4096), lastHexDigit (n / 256), lastHexDigit (n / 16),
    lastHexDigit n]

/-- A character in a string. -/
def escaped (c : Char) : List Char :=
  match c with
  | '\x22' => ['\\', '\x22']
  | '\\' => ['\\', '\\']
  | '\x08' => ['\\', 'b']
  | '\x0c' => ['\\', 'f']
  | '\n' => ['\\', 'n']
  | '\r' => ['\\', 'r']
  | '\t' => ['\\', 't']
  | c => if c < ' ' then numbered c.toNat else [c]

def Point.chars : Point → List Char
  | char c => escaped c
  | half n => numbered (0xD800 + n)

def quoted (points : List Point) : String :=
  String.ofList ('\x22' :: points.flatMap Point.chars ++ ['\x22'])

/-- The beginning of a line. -/
def indent (level : Nat) : String := "\n" ++ String.ofList (List.replicate (2 * level) ' ')

/-- Lines between brackets; without any, the brackets stand together. -/
def block (opening closing : String) (level : Nat) (lines : List String) : String :=
  if lines.isEmpty then opening ++ closing
  else opening ++ ",".intercalate (lines.map (indent (level + 1) ++ ·)) ++ indent level ++ closing

mutual

/-- The text of a value that stands at a level. -/
def write (level : Nat) : Value → String
  | .null => "null"
  | .boolean b => if b then "true" else "false"
  | .number literal => literal
  | .string points => quoted points
  | .array items => block "[" "]" level (writeItems (level + 1) items)
  | .object members => block "\x7b" "\x7d" level (writeMembers (level + 1) members)

def writeItems (level : Nat) : List Value → List String
  | [] => []
  | v :: vs => write level v :: writeItems level vs

def writeMembers (level : Nat) : List (List Point × Value) → List String
  | [] => []
  | (key, v) :: rest => (quoted key ++ ": " ++ write level v) :: writeMembers level rest

end

def Value.pretty (v : Value) : String := write 0 v

/-- The value of a text. -/
def Value.ofText (s : String) : Value := .string (points s)

def Value.ofRecord (fields : List (String × Value)) : Value :=
  .object (fields.map fun (name, v) ↦ (points name, v))

end Funnel.Json
