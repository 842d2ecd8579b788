/-!
# JSON values

A JSON value as its text gives it.  Numbers keep their literals and objects keep the order and the
repetitions of their members, because readers decide differently what to make of them.
-/

namespace Funnel.Json

/-- An element of a JSON string: a character, or half of a surrogate pair, written as an escape.
The number of a half counts from U+D800. -/
inductive Point
  | char (c : Char)
  | half (n : Fin 2048)
deriving DecidableEq, Repr

inductive Value
  | null
  | boolean (b : Bool)
  | number (literal : String)
  | string (points : List Point)
  | array (items : List Value)
  | object (members : List (List Point × Value))
deriving Repr, Inhabited

/-! ## Text -/

/-- The character that two halves denote, if the first is a high and the second a low one. -/
def joined? (high low : Fin 2048) : Option Char :=
  if high < 1024 ∧ 1024 ≤ low.val then
    some (Char.ofNat (0x10000 + high * 0x400 + (low - 1024)))
  else none

/-- The characters of a string; there are none if half of a pair stands alone. -/
def chars? : List Point → Option (List Char)
  | [] => some []
  | .char c :: rest => (chars? rest).map (c :: ·)
  | .half high :: .half low :: rest => do
    let c ← joined? high low
    return c :: (← chars? rest)
  | .half _ :: _ => none

def text? (points : List Point) : Option String := (chars? points).map String.ofList

/-- The string with these characters. -/
def points (s : String) : List Point := s.toList.map .char

end Funnel.Json
