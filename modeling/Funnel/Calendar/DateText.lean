import Funnel.Calendar.Date
import Funnel.Text.Blank

/-!
# Dates as text

A date is written as year, month and day with hyphens between them.  A year of up to four digits
has no sign; the other years have one, so that the reader knows how many digits belong to it.
Reading is more liberal than writing: numbers may lack their leading zeros, and white space may
stand before each number, before each hyphen and at the end.
-/

namespace Funnel.Date

open Text (isBlank)

/-! ## Writing -/

/-- A number with at least `width` digits. -/
def padded (width n : Nat) : List Char := (Nat.toDigits 10 n).leftpad width '0'

def yearText (year : Int) : List Char :=
  if year < 0 then '-' :: padded 4 year.natAbs
  else if 9999 < year then '+' :: padded 4 year.natAbs
  else padded 4 year.natAbs

def chars (d : Date) : List Char :=
  yearText d.year ++ '-' :: padded 2 d.month ++ '-' :: padded 2 d.day

def text (d : Date) : String := String.ofList d.chars

/-! ## Reading -/

/-- The number that a run of digits denotes. -/
def ofDigits (ds : List Char) : Nat := ds.foldl (fun n c ↦ 10 * n + (c.toNat - '0'.toNat)) 0

/-- The number at the head of a text, of at most `most` digits if a bound is given. -/
def readNumber? (most : Option Nat) (cs : List Char) : Option (Nat × List Char) :=
  let candidates := match most with
    | some k => cs.take k
    | none => cs
  let ds := candidates.takeWhile Char.isDigit
  if ds.isEmpty then none else some (ofDigits ds, cs.drop ds.length)

/-- A year has at most four digits, or a sign and any number of digits. -/
def readYear? : List Char → Option (Int × List Char)
  | '-' :: cs => (readNumber? none cs).map fun (n, rest) ↦ (-(n : Int), rest)
  | '+' :: cs => (readNumber? none cs).map fun (n, rest) ↦ ((n : Int), rest)
  | cs => (readNumber? (some 4) cs).map fun (n, rest) ↦ ((n : Int), rest)

/-- Leaves out white space. -/
def skipBlanks (cs : List Char) : List Char := cs.dropWhile isBlank

/-- What follows a hyphen, with white space before it. -/
def afterHyphen? (cs : List Char) : Option (List Char) :=
  match skipBlanks cs with
  | '-' :: rest => some rest
  | _ => none

/-- The date that a text denotes. -/
def read? (source : String) : Option Date := do
  let (year, cs) ← readYear? (skipBlanks source.toList)
  let cs ← afterHyphen? cs
  let (month, cs) ← readNumber? (some 2) (skipBlanks cs)
  let cs ← afterHyphen? cs
  let (day, cs) ← readNumber? (some 2) (skipBlanks cs)
  if (skipBlanks cs).isEmpty then ofParts? year month day else none

end Funnel.Date
