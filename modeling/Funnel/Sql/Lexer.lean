import Funnel.Sql.SyntaxError
import Funnel.Text.Blank

/-!
# Splitting a text into tokens

`scan` takes one token, or one piece of white space or comment, off the front of a text; `lex`
does so to the end.  A token is the longest one that fits, except that a number ends before a
second point and an exponent needs a digit.
-/

namespace Funnel.Sql.Lexer

open Text (isBlank isLetter isNumber)

/-! ## Words -/

/-- What one step yields: a token, or nothing for white space and comments, and the rest. -/
abbrev Step := Except SyntaxError (Option Token × List Char)

def token (t : Token) (rest : List Char) : Step := .ok (some t, rest)

def fault (f : LexicalFault) (left : Nat) : Step := .error (.lexical f left)

/-- The word that begins with `first` and goes on with word characters. -/
def word (first : List Char) (cs : List Char) : Step :=
  token (.ofWord (String.ofList (first ++ cs.takeWhile isWordPart))) (cs.dropWhile isWordPart)

/-! ## Comments and white space -/

/-- The rest behind a line comment; the end of its line belongs to it. -/
def dropLine : List Char → List Char
  | [] => []
  | '\n' :: cs => cs
  | _ :: cs => dropLine cs

/-- The rest behind a block comment that is `depth + 1` comments deep; `last` is the character
before it.  A sign may share a character with the one before: `/*/` opens a comment and closes
it. -/
def dropBlock (depth : Nat) (last : Char) : List Char → Option (List Char)
  | [] => none
  | c :: cs =>
    if last = '/' ∧ c = '*' then dropBlock (depth + 1) c cs
    else if last = '*' ∧ c = '/' then
      match depth with
      | 0 => some cs
      | depth + 1 => dropBlock depth c cs
    else dropBlock depth c cs

/-! ## Strings and quoted names -/

/-- A string whose opening quote is next; `left` counts from that quote. -/
def quoted (style : StringStyle) (q : Char) (cs : List Char) : Step :=
  match Text.Quoted.read q (cs.drop 1) with
  | some (s, rest) => token (.string style (String.ofList s)) rest
  | none => fault .openString cs.length

/-- A name whose opening quote has been taken. -/
def quotedName (quote : NameQuote) (cs : List Char) : Step :=
  match Text.Quoted.read quote.char cs with
  | some (s, rest) => token (.word (.quoted quote (String.ofList s)) none) rest
  | none => fault (.openName quote) (cs.length + 1)

/-- The text up to three quotes in a row, and what follows them. -/
def readTriple (q : Char) : List Char → Option (List Char × List Char)
  | [] => none
  | c :: cs =>
    if [q, q, q].isPrefixOf (c :: cs) then some ([], cs.drop 2)
    else (readTriple q cs).map fun (s, r) ↦ (c :: s, r)

/-- A raw string whose opening quotes are next.  Two quotes are the empty string, three open a
string that only three close. -/
def rawString (double : Bool) (q : Char) (cs : List Char) : Step :=
  if [q, q, q].isPrefixOf cs then
    match readTriple q (cs.drop 3) with
    | some (s, rest) => token (.string (.raw double true) (String.ofList s)) rest
    | none => fault .openString (cs.length - 3)
  else if [q, q].isPrefixOf cs then token (.string (.raw double false) "") (cs.drop 2)
  else
    match Text.Quoted.read q (cs.drop 1) with
    | some (s, rest) => token (.string (.raw double false) (String.ofList s)) rest
    | none => fault .openString (cs.length - 1)

/-- An `E` string whose quote is next; a fault is placed at the letter before it. -/
def escapedString (cs : List Char) : Step :=
  match Text.Escape.readNumbered (cs.drop 1) with
  | some (s, rest) => token (.string .escaped (String.ofList s)) rest
  | none => fault .openNumberedString (cs.length + 1)

/-- A `U&` string whose quote is next. -/
def codePointString (cs : List Char) : Step :=
  match Text.Escape.readCodePoints (cs.drop 1) with
  | .ok (s, rest) => token (.string .codePoints (String.ofList s)) rest
  | .error (problem, rest) =>
    let f := match problem with
      | .unterminated => LexicalFault.openCodePointString
      | .truncated => .cutEscape
      | .badDigit c => .badEscapeDigit c
      | .badCodePoint n => .badCodePoint n
    fault f rest.length

/-- An `X` or `N` string whose quote is next. -/
def codedString (style : StringStyle) (cs : List Char) : Step :=
  match Text.Escape.readCodes '\x27' (cs.drop 1) with
  | some (s, rest) => token (.string style (String.ofList s)) rest
  | none => fault .openString cs.length

/-! ## Dollars -/

/-- The text between `$$` and the next `$$`.  The flag says that the last character was a dollar;
a dollar on its own is kept once the character behind it is known. -/
def readDollars : Bool → List Char → Option (List Char × List Char)
  | _, [] => none
  | true, '$' :: cs => some ([], cs)
  | false, '$' :: cs => readDollars true cs
  | true, c :: cs => (readDollars false cs).map fun (s, r) ↦ ('$' :: c :: s, r)
  | false, c :: cs => (readDollars false cs).map fun (s, r) ↦ (c :: s, r)

/-- Compares the tag of a closing delimiter, up to the first character that differs.  The result
is what was taken, whether all of it agreed, and the rest; there is none at the end of the text. -/
def matchTag : List Char → List Char → Option (List Char × Bool × List Char)
  | [], cs => some ([], true, cs)
  | _ :: _, [] => none
  | t :: ts, c :: cs =>
    if t = c then (matchTag ts cs).map fun (taken, agreed, rest) ↦ (c :: taken, agreed, rest)
    else some ([c], false, cs)

/-- The text up to `$tag$`; every character taken pays for one step. -/
def readTagged (tag : List Char) : Nat → List Char → Option (List Char × List Char)
  | 0, _ => none
  | fuel + 1, cs => do
    let body := cs.takeWhile (· != '$')
    match cs.dropWhile (· != '$') with
    | [] => none
    | _ :: cs =>
      let (taken, agreed, rest) ← matchTag tag cs
      if agreed && rest.head? == some '$' then some (body, rest.drop 1)
      else (readTagged tag fuel rest).map fun (s, r) ↦ (body ++ '$' :: taken ++ s, r)

/-- What a dollar begins: a text between two dollars, a text between two tags, or a placeholder. -/
def dollar (cs : List Char) : Step :=
  match cs with
  | '$' :: cs =>
    match readDollars false cs with
    | some (s, rest) => token (.string (.dollar none) (String.ofList s)) rest
    | none => fault .openDollar 0
  | cs =>
    let isTagPart := fun c ↦ isLetter c || isNumber c || c == '_'
    let tag := cs.takeWhile isTagPart
    match cs.dropWhile isTagPart with
    | '$' :: rest =>
      match readTagged tag (rest.length + 1) rest with
      | some (s, rest) =>
        token (.string (.dollar (some (String.ofList tag))) (String.ofList s)) rest
      | none => fault .openTaggedDollar 0
    | rest => token (.placeholder (String.ofList ('$' :: tag))) rest

/-! ## Numbers -/

/-- A number or a period; `cs` begins with a digit or a period. -/
def number (cs : List Char) : Step :=
  match cs.takeWhile Char.isDigit, cs.dropWhile Char.isDigit with
  | ['0'], 'x' :: cs =>
    token (.string .hex (String.ofList (cs.takeWhile Text.Escape.isHexDigit)))
      (cs.dropWhile Text.Escape.isHexDigit)
  | _, _ =>
    match Numeral.read? cs with
    | none => token (.symbol .period) (cs.drop 1)
    | some (n, 'L' :: rest) => token (.number n true) rest
    | some (n, rest) => token (.number n false) rest

/-! ## One step -/

/-- What begins with `@` and is no operator of its own: `@` and `@@` before a space or the end of
the text, and words otherwise.  The first character behind the sign may be any. -/
def atWord (cs : List Char) : Step :=
  match cs with
  | '@' :: rest =>
    match rest with
    | [] => token (.symbol .atAt) []
    | ' ' :: _ => token (.symbol .atAt) rest
    | c :: rest => word ['@', '@', c] rest
  | [] => token (.symbol .atSign) []
  | ' ' :: _ => token (.symbol .atSign) cs
  | c :: rest => word ['@', c] rest

/-- What begins with `#` and is no operator of its own. -/
def sharpWord (cs : List Char) : Step :=
  match cs with
  | [] => token (.symbol .sharp) []
  | ' ' :: _ => token (.symbol .sharp) cs
  | c :: rest => word ['#', c] rest

/-- A sign, a word that is no literal, white space or a stray character. -/
def scanPlain (c : Char) (cs : List Char) : Step :=
  match Symbol.read (c :: cs) with
  | some (s, rest) => token (.symbol s) rest
  | none =>
    if c = '@' then atWord cs
    else if c = '#' then sharpWord cs
    else if c = '?' then
      token (.placeholder (String.ofList ('?' :: cs.takeWhile isNumber))) (cs.dropWhile isNumber)
    else if isWordStart c then word [c] cs
    else if c = '$' then dollar cs
    else if isBlank c then .ok (none, cs)
    else token (.stray c) cs

/-- One step on the text `c :: cs`. -/
def scan (c : Char) (cs : List Char) : Step :=
  match c, cs with
  | '\x27', _ => quoted .plain '\x27' (c :: cs)
  | '\x22', _ => quotedName .double cs
  | '\x60', _ => quotedName .back cs
  | '-', '-' :: cs => .ok (none, dropLine cs)
  | '/', '*' :: cs =>
    match dropBlock 0 ' ' cs with
    | some rest => .ok (none, rest)
    | none => fault .openComment 0
  | 'b', '\x27' :: _ | 'B', '\x27' :: _ => quoted (.bytes false) '\x27' cs
  | 'b', '\x22' :: _ | 'B', '\x22' :: _ => quoted (.bytes true) '\x22' cs
  | 'r', '\x27' :: _ | 'R', '\x27' :: _ => rawString false '\x27' cs
  | 'r', '\x22' :: _ | 'R', '\x22' :: _ => rawString true '\x22' cs
  | 'n', '\x27' :: _ | 'N', '\x27' :: _ => codedString .national cs
  | 'e', '\x27' :: _ | 'E', '\x27' :: _ => escapedString cs
  | 'u', '&' :: '\x27' :: cs | 'U', '&' :: '\x27' :: cs => codePointString ('\x27' :: cs)
  | 'x', '\x27' :: _ | 'X', '\x27' :: _ => codedString .hex cs
  | '.', _ => number (c :: cs)
  | c, cs => if c.isDigit then number (c :: cs) else scanPlain c cs

/-! ## The whole text -/

/-- The tokens of a text, each step paid for from `fuel`. -/
def lexIn : Nat → List Char → Except SyntaxError (List Lexeme)
  | _, [] => .ok []
  | 0, _ :: _ => .ok []
  | fuel + 1, c :: cs => do
    let (found, rest) ← scan c cs
    match found with
    | some t => return ⟨t, cs.length + 1⟩ :: (← lexIn fuel rest)
    | none => lexIn fuel rest

/-- The tokens of a text.  A step takes at least one character, so the length of the text pays for
all of them. -/
def lex (cs : List Char) : Except SyntaxError (List Lexeme) := lexIn cs.length cs

end Funnel.Sql.Lexer
