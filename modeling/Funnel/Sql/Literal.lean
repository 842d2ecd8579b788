import Funnel.Sql.Numeral
import Funnel.Sql.Word
import Funnel.Text.Escape
import Funnel.Text.Quoted

/-!
# Names and literals

The leaves of a filter that are more than keywords: names with the quotes they were written in,
and literal values with the notation they were written in.
-/

namespace Funnel.Sql

/-! ## Names -/

/-- The quotes around a name. -/
inductive NameQuote
  | double
  | back
  | single
deriving DecidableEq, Repr

def NameQuote.char : NameQuote → Char
  | double => '\x22'
  | back => '\x60'
  | single => '\x27'

/-- One part of a name; `text` is without the quotes.  Only a word can go without them. -/
@[ext]
structure Ident where
  text : String
  quote : Option NameQuote
  bare : quote = none → Lexer.isBare text.toList = true
deriving DecidableEq, Repr

namespace Ident

def quoted (quote : NameQuote) (text : String) : Ident := ⟨text, some quote, by simp⟩

/-- The name with a text, in quotes only if the text is no word. -/
def plain (text : String) : Ident :=
  if h : Lexer.isBare text.toList = true then ⟨text, none, fun _ ↦ h⟩ else quoted .double text

@[simp]
theorem plain_text (text : String) : (plain text).text = text := by
  unfold plain
  split <;> rfl

theorem plain_quote {text : String} (h : Lexer.isBare text.toList = true) :
    (plain text).quote = none := by
  rw [plain, dif_pos h]

/-- The name as it is written. -/
def sql (i : Ident) : String :=
  match i.quote with
  | none => i.text
  | some q =>
    String.ofList (q.char :: Text.Quoted.respell q.char false i.text.toList ++ [q.char])

/-- The parts of a dotted name as they are written. -/
def dottedSql (parts : List Ident) : String := ".".intercalate (parts.map sql)

/-- A dotted name without its quotes, by which columns are looked up. -/
def dottedName (parts : List Ident) : String := ".".intercalate (parts.map text)

end Ident

/-! ## Literals -/

/-- The notations of string literals. -/
inductive StringStyle
  /-- `'…'` -/
  | plain
  /-- `"…"`, where no name can stand -/
  | doubleQuoted
  /-- `N'…'` -/
  | national
  /-- `X'…'` and `0x…` -/
  | hex
  /-- `E'…'` -/
  | escaped
  /-- `U&'…'` -/
  | codePoints
  /-- `B'…'`, or with double quotes -/
  | bytes (double : Bool)
  /-- `R'…'`, or with double quotes, or with three quotes on each side -/
  | raw (double triple : Bool)
  /-- `$tag$…$tag$` -/
  | dollar (tag : Option String)
deriving DecidableEq, Repr

/-- A string between an opening and a closing text. -/
def enclose (opening : String) (body : String) (closing : String) : String :=
  opening ++ body ++ closing

/-- A string literal as it stands in the text, without any escapes. -/
def StringStyle.bare (style : StringStyle) (s : String) : String :=
  match style with
  | plain => enclose "'" s "'"
  | doubleQuoted => enclose "\x22" s "\x22"
  | national => enclose "N'" s "'"
  | hex => enclose "X'" s "'"
  | escaped => enclose "E'" s "'"
  | codePoints => enclose "U&'" s "'"
  | bytes false => enclose "B'" s "'"
  | bytes true => enclose "B\x22" s "\x22"
  | raw false false => enclose "R'" s "'"
  | raw false true => enclose "R'''" s "'''"
  | raw true false => enclose "R\x22" s "\x22"
  | raw true true => enclose "R\x22\x22\x22" s "\x22\x22\x22"
  | dollar none => enclose "$$" s "$$"
  | dollar (some tag) => enclose ("$" ++ tag ++ "$") s ("$" ++ tag ++ "$")

/-- A string literal with the escapes that its notation knows. -/
def StringStyle.sql (style : StringStyle) (s : String) : String :=
  match style with
  | plain => style.bare (String.ofList (Text.Quoted.respell '\x27' false s.toList))
  | doubleQuoted => style.bare (String.ofList (Text.Quoted.respell '\x22' false s.toList))
  | escaped => style.bare (String.ofList (Text.Escape.writeNumbered s.toList))
  | codePoints => style.bare (String.ofList (Text.Escape.writeCodePoints s.toList))
  | style => style.bare s

inductive Literal
  | number (n : Numeral) (long : Bool)
  | string (style : StringStyle) (text : String)
  | boolean (value : Bool)
  | null
  | placeholder (text : String)
deriving DecidableEq, Repr

/-- A number as it was spelled; the suffix `L` marks a long one. -/
def numberSql (n : Numeral) (long : Bool) : String := if long then n.text ++ "L" else n.text

def Literal.sql : Literal → String
  | number n long => numberSql n long
  | string style text => style.sql text
  | boolean true => "true"
  | boolean false => "false"
  | null => "NULL"
  | placeholder text => text

end Funnel.Sql
