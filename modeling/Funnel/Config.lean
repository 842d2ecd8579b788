import Funnel.Catalog.UserSet
import Funnel.Json.Shape
import Funnel.Text.Blank

/-!
# Configuration

The names of the columns that every collection and table has, and two choices: how many values of a
breakdown get a row of their own, and which user set is reported when a filter needs a column that
no table serves.
-/

namespace Funnel

/-- The user set that is reported for a filter column without a table. -/
inductive Fallback
  /-- The users of the collection. -/
  | collectionOnly
  /-- The users of the collection by that column. -/
  | column
  /-- The users of the collection by the dimension of the request, if it has one. -/
  | dimension
deriving DecidableEq, Repr

namespace Fallback

def name : Fallback → String
  | collectionOnly => "collection_only"
  | column => "column"
  | dimension => "dimension"

def all : List Fallback := [collectionOnly, column, dimension]

def ofName? (s : String) : Option Fallback := all.find? (·.name = s)

/-- The user set to report for a column of a filter on a collection. -/
def userSet (mode : Fallback) (collection : String) (dimension : Option String) (column : String) :
    UserSet :=
  match mode with
  | .collectionOnly => ⟨collection, none⟩
  | .column => ⟨collection, some column⟩
  | .dimension => ⟨collection, dimension⟩

/-- A fallback is written as its name, or as an object whose one member has that name and no
value. -/
def ofJson? : Json.Value → Option Fallback
  | .object [(key, .null)] => Json.text? key >>= ofName?
  | v => v.text? >>= ofName?

end Fallback

structure Config where
  /-- The column that tells users apart. -/
  connectorField : String
  /-- The column with the time of a raw event. -/
  timeColumn : String
  /-- The column with the day, in precomputed tables and in every step. -/
  dateColumn : String
  /-- How many values of a breakdown have a row of their own. -/
  topBuckets : Nat
  fallback : Fallback
deriving DecidableEq, Repr

/-- What is wrong with a configuration. -/
inductive ConfigFault
  | blankColumn (field : String)
  | noBuckets
deriving DecidableEq, Repr

def ConfigFault.text : ConfigFault → String
  | blankColumn field => field ++ " must not be empty"
  | noBuckets => "top_dimension_buckets must be at least 1"

namespace Config

def default : Config := ⟨"_user", "_time", "date", 15, .collectionOnly⟩

instance : Inhabited Config := ⟨default⟩

/-- The columns that need a name, in the order in which they are checked. -/
def columnFields (c : Config) : List (String × String) :=
  [("connector_field", c.connectorField), ("time_column", c.timeColumn),
    ("date_column", c.dateColumn)]

/-- The first fault of a configuration. -/
def fault? (c : Config) : Option ConfigFault :=
  match c.columnFields.find? (fun (_, name) ↦ Text.allBlank name) with
  | some (field, _) => some (.blankColumn field)
  | none => if c.topBuckets = 0 then some .noBuckets else none

/-! ## JSON -/

/-- The greatest number of buckets that can be asked for. -/
def mostBuckets : Nat := 18446744073709551615

/-- A configuration; a field that is not given has its default. -/
def ofJson? (v : Json.Value) : Option Config := do
  let r ← v.record?
    ["connector_field", "time_column", "date_column", "top_dimension_buckets",
      "partial_filter_fallback"]
  return {
    connectorField := ← Json.optional r "connector_field" Json.Value.text? default.connectorField
    timeColumn := ← Json.optional r "time_column" Json.Value.text? default.timeColumn
    dateColumn := ← Json.optional r "date_column" Json.Value.text? default.dateColumn
    topBuckets := ←
      Json.optional r "top_dimension_buckets" (Json.Value.nat? mostBuckets) default.topBuckets
    fallback := ← Json.optional r "partial_filter_fallback" Fallback.ofJson? default.fallback }

end Config

end Funnel
