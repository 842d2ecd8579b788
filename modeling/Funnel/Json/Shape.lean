import Funnel.Json.Reader

/-!
# Records in JSON

What a program expects of a value.  A record is an object, of which unknown members are left out
and known ones may not be repeated, or an array of its fields in their order, of which the last
ones may be missing.
-/

namespace Funnel.Json

/-- Why a text does not give what it should. -/
inductive Fault
  /-- The text is not a JSON value. -/
  | malformed
  /-- The value does not have the expected form. -/
  | unexpected
deriving DecidableEq, Repr

/-- Reads a text whose value has to fit. -/
def decode {α : Type} (fit : Value → Option α) (source : String) : Except Fault α :=
  match read? source with
  | none => .error .malformed
  | some value =>
    match fit value with
    | none => .error .unexpected
    | some a => .ok a

namespace Value

def text? : Value → Option String
  | string points => Json.text? points
  | _ => none

/-- A text, or `null` for none. -/
def optionalText? : Value → Option (Option String)
  | null => some none
  | v => v.text?.map some

/-- The items of an array, each of which has to fit. -/
def list? {α : Type} (fit : Value → Option α) : Value → Option (List α)
  | array items => items.mapM fit
  | _ => none

/-- A natural number up to a bound, written with digits alone. -/
def nat? (most : Nat) : Value → Option Nat
  | number literal =>
    if literal.toList.all Char.isDigit then
      let n := literal.toList.foldl (fun n c ↦ 10 * n + (c.toNat - '0'.toNat)) 0
      if n ≤ most then some n else none
    else none
  | _ => none

/-- The members of an object under their names. -/
def members? : Value → Option (List (String × Value))
  | object members => members.mapM fun (key, v) ↦ return (← Json.text? key, v)
  | _ => none

/-- The fields of a record that are given. -/
def record? (fields : List String) : Value → Option (List (String × Value))
  | array items => if items.length ≤ fields.length then some (fields.zip items) else none
  | v => do
    let known := (← v.members?).filter fun (name, _) ↦ fields.contains name
    if (known.map Prod.fst).Nodup then return known else none

end Value

/-- A field that has to be given. -/
def required {α : Type} (record : List (String × Value)) (name : String) (fit : Value → Option α) :
    Option α := do
  fit (← record.lookup name)

/-- A field with a value for when it is not given. -/
def optional {α : Type} (record : List (String × Value)) (name : String) (fit : Value → Option α)
    (default : α) : Option α :=
  match record.lookup name with
  | some v => fit v
  | none => some default

end Funnel.Json
