import Funnel.Sql.Keyword
import Funnel.Sql.Literal

/-!
# Tokens

The words, literals and signs that a filter text is made of.
-/

namespace Funnel.Sql

/-- The signs of SQL. -/
inductive Symbol
  | comma | period | colon | doubleColon | assign | semicolon | backslash
  | lparen | rparen | lbracket | rbracket | lbrace | rbrace
  | eq | doubleEq | notEq | lt | ltEq | gt | gtEq | spaceship | fatArrow
  | plus | minus | times | div | intDiv | mod | concat
  | pipe | ampersand | caret | caretAt | overlap | shiftLeft | shiftRight
  | bang | doubleBang | sharp | atSign | squareRoot | cubeRoot
  | tilde | tildeStar | notTilde | notTildeStar
  | doubleTilde | doubleTildeStar | notDoubleTilde | notDoubleTildeStar
  | arrow | longArrow | hashArrow | hashLongArrow | atArrow | arrowAt
  | hashMinus | atQuestion | atAt
deriving DecidableEq, Repr

namespace Symbol

/-- The spelling of a sign; inequality has a second one. -/
def text : Symbol → String
  | comma => "," | period => "." | colon => ":" | doubleColon => "::" | assign => ":="
  | semicolon => ";" | backslash => "\\"
  | lparen => "(" | rparen => ")" | lbracket => "[" | rbracket => "]"
  | lbrace => "\x7b" | rbrace => "\x7d"
  | eq => "=" | doubleEq => "==" | notEq => "<>" | lt => "<" | ltEq => "<=" | gt => ">"
  | gtEq => ">=" | spaceship => "<=>" | fatArrow => "=>"
  | plus => "+" | minus => "-" | times => "*" | div => "/" | intDiv => "//" | mod => "%"
  | concat => "||"
  | pipe => "|" | ampersand => "&" | caret => "^" | caretAt => "^@" | overlap => "&&"
  | shiftLeft => "<<" | shiftRight => ">>"
  | bang => "!" | doubleBang => "!!" | sharp => "#" | atSign => "@"
  | squareRoot => "|/" | cubeRoot => "||/"
  | tilde => "~" | tildeStar => "~*" | notTilde => "!~" | notTildeStar => "!~*"
  | doubleTilde => "~~" | doubleTildeStar => "~~*"
  | notDoubleTilde => "!~~" | notDoubleTildeStar => "!~~*"
  | arrow => "->" | longArrow => "->>" | hashArrow => "#>" | hashLongArrow => "#>>"
  | atArrow => "@>" | arrowAt => "<@" | hashMinus => "#-" | atQuestion => "@?" | atAt => "@@"

/-- The signs that are told apart by their spelling alone, longer spellings first.  The signs that
begin a word when other characters follow (`#`, `@` and `@@`) are not among them. -/
def spellings : List (List Char × Symbol) :=
  [(['!', '~', '~', '*'], notDoubleTildeStar),
   (['!', '~', '~'], notDoubleTilde), (['!', '~', '*'], notTildeStar),
   (['~', '~', '*'], doubleTildeStar), (['-', '>', '>'], longArrow),
   (['#', '>', '>'], hashLongArrow), (['|', '|', '/'], cubeRoot), (['<', '=', '>'], spaceship),
   (['!', '~'], notTilde), (['!', '='], notEq), (['!', '!'], doubleBang),
   (['~', '~'], doubleTilde), (['~', '*'], tildeStar), (['-', '>'], arrow),
   (['#', '>'], hashArrow), (['#', '-'], hashMinus), (['@', '>'], atArrow),
   (['@', '?'], atQuestion), (['|', '|'], concat), (['|', '/'], squareRoot),
   (['<', '='], ltEq), (['<', '>'], notEq), (['<', '<'], shiftLeft), (['<', '@'], arrowAt),
   (['>', '='], gtEq), (['>', '>'], shiftRight), (['=', '='], doubleEq), (['=', '>'], fatArrow),
   ([':', ':'], doubleColon), ([':', '='], assign), (['&', '&'], overlap), (['^', '@'], caretAt),
   (['/', '/'], intDiv),
   ([','], comma), ([':'], colon), ([';'], semicolon), (['\\'], backslash),
   (['('], lparen), ([')'], rparen), (['['], lbracket), ([']'], rbracket),
   (['\x7b'], lbrace), (['\x7d'], rbrace),
   (['='], eq), (['<'], lt), (['>'], gt), (['+'], plus), (['-'], minus), (['*'], times),
   (['/'], div), (['%'], mod), (['|'], pipe), (['&'], ampersand), (['^'], caret), (['!'], bang),
   (['~'], tilde)]

/-- The longest sign that a text begins with, and the rest of the text. -/
def read (cs : List Char) : Option (Symbol × List Char) :=
  spellings.findSome? fun (spelling, symbol) ↦
    if spelling.isPrefixOf cs then some (symbol, cs.drop spelling.length) else none

end Symbol

inductive Token
  /-- A name or a keyword, with the keyword that it spells when it has no quotes. -/
  | word (name : Ident) (key : Option Keyword)
  | number (n : Numeral) (long : Bool)
  | string (style : StringStyle) (text : String)
  | placeholder (text : String)
  | symbol (s : Symbol)
  /-- A character that begins no token. -/
  | stray (c : Char)
deriving DecidableEq, Repr

namespace Token

/-- A token as messages show it.  A quote inside a name or a string stands alone. -/
def text : Token → String
  | word name _ =>
    match name.quote with
    | none => name.text
    | some q => String.ofList (q.char :: name.text.toList ++ [q.char])
  | number n long => numberSql n long
  | string style text => style.bare text
  | placeholder text => text
  | symbol s => s.text
  | stray c => String.singleton c

/-- A word without quotes, marked as the keyword that it may spell. -/
def ofWord (w : String) : Token := word (Ident.plain w) (Keyword.ofWord? w)

/-- The keyword that a token spells. -/
def key? : Token → Option Keyword
  | word _ key => key
  | _ => none

end Token

/-- A token at its place in the text.  The place is the number of characters from the first one of
the token to the end of the text, so that it does not depend on what stands before. -/
structure Lexeme where
  token : Token
  left : Nat
deriving DecidableEq, Repr

end Funnel.Sql
