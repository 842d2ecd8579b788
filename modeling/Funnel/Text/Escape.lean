/-!
# Escapes in string literals

Three notations let a literal name characters that are awkward to type.  In `X'…'` and `N'…'` a
backslash stands before a letter code or before the character itself; in `E'…'` it may also open a
number in octal or hexadecimal digits; in `U&'…'` it opens a code point of four digits, or of six
after a plus.  Each reader starts behind the opening quote and returns the text and what follows the
closing quote.
-/

namespace Funnel.Text.Escape

/-- The value of a hexadecimal digit. -/
def hexDigit? (c : Char) : Option Nat :=
  if '0' ≤ c ∧ c ≤ '9' then some (c.toNat - '0'.toNat)
  else if 'a' ≤ c ∧ c ≤ 'f' then some (c.toNat - 'a'.toNat + 10)
  else if 'A' ≤ c ∧ c ≤ 'F' then some (c.toNat - 'A'.toNat + 10)
  else none

def isHexDigit (c : Char) : Bool := (hexDigit? c).isSome

def isOctalDigit (c : Char) : Bool := '0' ≤ c && c ≤ '7'

/-- The number that digits of a base spell; every digit counts as hexadecimal. -/
def ofDigits (base : Nat) (digits : List Char) : Nat :=
  digits.foldl (fun n c ↦ n * base + (hexDigit? c).getD 0) 0

/-- The character of a code point. -/
def ofCodePoint? (n : Nat) : Option Char :=
  if n.isValidChar then some (Char.ofNat n) else none

/-- A byte in the range of ASCII; higher bits than the eighth are dropped first. -/
def ofByte? (n : Nat) : Option Char :=
  if n % 256 < 128 then some (Char.ofNat (n % 256)) else none

/-! ## Backslash codes: `X'…'` and `N'…'` -/

/-- The character that a backslash and a letter stand for. -/
def letterCode : Char → Char
  | '0' => Char.ofNat 0
  | 'a' => Char.ofNat 7
  | 'b' => Char.ofNat 8
  | 'f' => Char.ofNat 12
  | 'n' => '\n'
  | 'r' => '\r'
  | 't' => '\t'
  | 'Z' => Char.ofNat 26
  | c => c

/-- Reads a text in which a quote may be doubled or stand behind a backslash. -/
def readCodes (q : Char) : List Char → Option (List Char × List Char)
  | [] => none
  | c :: cs =>
    if c = q then
      match cs with
      | [] => some ([], [])
      | c' :: cs' =>
        if c' = q then (readCodes q cs').map fun (s, r) ↦ (q :: s, r) else some ([], cs)
    else if c = '\\' then
      match cs with
      | [] => none
      | c' :: cs' => (readCodes q cs').map fun (s, r) ↦ (letterCode c' :: s, r)
    else (readCodes q cs).map fun (s, r) ↦ (c :: s, r)

/-! ## Numbered escapes: `E'…'` -/

/-- Hexadecimal digits of a fixed count; a plus may take the place of the first one. -/
def fixedHex? (count : Nat) (cs : List Char) : Option (Char × List Char) :=
  let digits := cs.take count
  let digits' := match digits with
    | '+' :: ds => ds
    | ds => ds
  if digits.length = count ∧ digits' ≠ [] ∧ digits'.all isHexDigit then
    (ofCodePoint? (ofDigits 16 digits')).map fun c ↦ (c, cs.drop count)
  else none

/-- What stands behind a backslash: a character, and the rest.  No escape yields the character of
code zero. -/
def numbered? : List Char → Option (Char × List Char)
  | [] => none
  | c :: cs => do
    let (value, rest) ← match c with
      | 'b' => some (Char.ofNat 8, cs)
      | 'f' => some (Char.ofNat 12, cs)
      | 'n' => some ('\n', cs)
      | 'r' => some ('\r', cs)
      | 't' => some ('\t', cs)
      | 'u' => fixedHex? 4 cs
      | 'U' => fixedHex? 8 cs
      | 'x' =>
        match (cs.take 2).takeWhile isHexDigit with
        | [] => some ('x', cs)
        | ds => (ofByte? (ofDigits 16 ds)).map fun v ↦ (v, cs.drop ds.length)
      | c =>
        if isOctalDigit c then
          let ds := (cs.take 2).takeWhile isOctalDigit
          (ofByte? (ofDigits 8 (c :: ds))).map fun v ↦ (v, cs.drop ds.length)
        else some (c, cs)
    if value.toNat = 0 then none else some (value, rest)

/-- The reader of `E'…'`; every character it takes pays for one step. -/
def readNumberedIn : Nat → List Char → Option (List Char × List Char)
  | 0, _ => none
  | _, [] => none
  | n + 1, '\x27' :: '\x27' :: cs => (readNumberedIn n cs).map fun (s, r) ↦ ('\x27' :: s, r)
  | _, '\x27' :: cs => some ([], cs)
  | n + 1, '\\' :: cs => do
    let (c, rest) ← numbered? cs
    (readNumberedIn n rest).map fun (s, r) ↦ (c :: s, r)
  | n + 1, c :: cs => (readNumberedIn n cs).map fun (s, r) ↦ (c :: s, r)

def readNumbered (cs : List Char) : Option (List Char × List Char) :=
  readNumberedIn (cs.length + 1) cs

/-- The way back: quotes, backslashes and the three line and tab characters are escaped. -/
def writeNumbered (cs : List Char) : List Char :=
  cs.flatMap fun
    | '\x27' => ['\\', '\x27']
    | '\\' => ['\\', '\\']
    | '\n' => ['\\', 'n']
    | '\t' => ['\\', 't']
    | '\r' => ['\\', 'r']
    | c => [c]

/-! ## Code points: `U&'…'` -/

/-- Why a text in code points cannot be read. -/
inductive Problem
  | unterminated
  | truncated
  | badDigit (c : Char)
  | badCodePoint (n : Nat)
deriving DecidableEq, Repr

/-- A code point of a fixed count of digits.  A problem comes with the text that is left behind
the character that shows it. -/
def codePoint (count : Nat) (value : Nat) (cs : List Char) :
    Except (Problem × List Char) (Char × List Char) :=
  match count with
  | 0 =>
    match ofCodePoint? value with
    | some c => .ok (c, cs)
    | none => .error (.badCodePoint value, cs)
  | n + 1 =>
    match cs with
    | [] => .error (.truncated, [])
    | c :: cs =>
      match hexDigit? c with
      | some d => codePoint n (value * 16 + d) cs
      | none => .error (.badDigit c, cs)

def readCodePointsIn : Nat → List Char → Except (Problem × List Char) (List Char × List Char)
  | 0, cs => .error (.unterminated, cs)
  | _, [] => .error (.unterminated, [])
  | n + 1, '\x27' :: '\x27' :: cs => do
    let (s, r) ← readCodePointsIn n cs
    return ('\x27' :: s, r)
  | _, '\x27' :: cs => .ok ([], cs)
  | n + 1, '\\' :: '\\' :: cs => do
    let (s, r) ← readCodePointsIn n cs
    return ('\\' :: s, r)
  | n + 1, '\\' :: '+' :: cs => do
    let (c, rest) ← codePoint 6 0 cs
    let (s, r) ← readCodePointsIn n rest
    return (c :: s, r)
  | n + 1, '\\' :: cs => do
    let (c, rest) ← codePoint 4 0 cs
    let (s, r) ← readCodePointsIn n rest
    return (c :: s, r)
  | n + 1, c :: cs => do
    let (s, r) ← readCodePointsIn n cs
    return (c :: s, r)

def readCodePoints (cs : List Char) : Except (Problem × List Char) (List Char × List Char) :=
  readCodePointsIn (cs.length + 1) cs

/-- The digits of a number in upper-case hexadecimal, with leading zeros up to a width. -/
def hexPadded (width n : Nat) : List Char :=
  let digits := (Nat.toDigits 16 n).map Char.toUpper
  List.replicate (width - digits.length) '0' ++ digits

/-- The way back: all characters beyond ASCII are written as code points. -/
def writeCodePoints (cs : List Char) : List Char :=
  cs.flatMap fun c ↦
    if c = '\x27' then ['\x27', '\x27']
    else if c = '\\' then ['\\', '\\']
    else if c.toNat < 0x80 then [c]
    else if c.toNat ≤ 0xFFFF then '\\' :: hexPadded 4 c.toNat
    else '\\' :: '+' :: hexPadded 6 c.toNat

end Funnel.Text.Escape
