import Funnel.Catalog.Registry
import Funnel.Catalog.UserSet

/-!
# Looking up tables

Tables are looked up by name, first among the continuous ones.  A listing is asked for when it is
first needed and kept from then on, also when the registry failed to give it: then it is empty.  The
materialized listing is not needed for a table that is found among the continuous ones.
-/

namespace Funnel

/-- What is known of one listing: its tables, once it was asked for, and how often that was. -/
structure Listing where
  tables : Option (List String)
  requests : Nat
deriving DecidableEq, Repr

/-- Nothing is known yet. -/
def Listing.unread : Listing := ⟨none, 0⟩

/-- The tables of a listing, from a source that is asked if they are not known. -/
def Listing.read (source : Nat → Option (List String)) : StateM Listing (List String) := fun l ↦
  match l.tables with
  | some tables => (tables, l)
  | none =>
    let tables := (source l.requests).getD []
    (tables, ⟨some tables, l.requests + 1⟩)

/-- What is known of the two listings of a project. -/
structure Listings where
  continuous : Listing
  materialized : Listing
deriving DecidableEq, Repr

namespace Listings

def unread : Listings := ⟨.unread, .unread⟩

variable (registry : Registry) (project : String)

/-- The tables of a schema. -/
def tables (schema : Schema) : StateM Listings (List String) := fun s ↦
  let source := registry.answer schema project
  match schema with
  | .continuous =>
    let (tables, l) := Listing.read source s.continuous
    (tables, { s with continuous := l })
  | .materialized =>
    let (tables, l) := Listing.read source s.materialized
    (tables, { s with materialized := l })

/-- The table of this name. -/
def find (name : String) : StateM Listings (Option DailyTable) := do
  let continuous ← tables registry project .continuous
  if continuous.contains name then
    return some ⟨.continuous, name⟩
  else
    let materialized ← tables registry project .materialized
    return if materialized.contains name then some ⟨.materialized, name⟩ else none

/-- The tables of user sets, looked up one after the other. -/
def findAll (connector : String) :
    List UserSet → StateM Listings (List (UserSet × Option DailyTable))
  | [] => return []
  | set :: sets => do
    let table ← find registry project (set.tableName connector)
    let rest ← findAll connector sets
    return (set, table) :: rest

end Listings

end Funnel
