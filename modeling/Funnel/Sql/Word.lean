import Funnel.Text.Letter

/-!
# Words

The characters that words are made of, and the texts that are words by themselves: those that can
stand for a name without quotes.
-/

namespace Funnel.Sql.Lexer

open Text (isLetter)

def isWordStart (c : Char) : Bool := isLetter c || c == '_' || c == '#' || c == '@'

def isWordPart (c : Char) : Bool := isWordStart c || c.isDigit || c == '$'

/-- The number of characters at the front of a word that need not be word characters: behind the
signs `#`, `@` and `@@` stands a character that may be any. -/
def leadLength : List Char → Nat
  | '@' :: '@' :: _ => 3
  | '@' :: _ => 2
  | '#' :: _ => 2
  | _ => 1

/-- A text that can be a word. -/
def isBare (cs : List Char) : Bool :=
  cs.head?.any isWordStart && decide (leadLength cs ≤ cs.length) &&
    (cs.drop (leadLength cs)).all isWordPart

end Funnel.Sql.Lexer
