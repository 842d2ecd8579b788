import Funnel.Calendar.DateText
import Funnel.Calendar.Period
import Funnel.Catalog.Basic

/-!
# Selects

The queries of a plan as data: what a query reads from, how its items are joined, which rows it
keeps and which columns it shows.  A query is generic in its items.  The items of a simple query are
collections of raw events and precomputed tables; an item of an outer query may be a simple query.
-/

namespace Funnel

/-- What can stand in a `FROM` list: its text there, and the name that qualifies its columns. -/
class FromItem (ι : Type) where
  declaration : ι → String
  qualifier : ι → String

/-- The value of a column, or the day of a column with a time; the item that the column belongs to
is named where more than one item is read. -/
inductive Scalar (ι : Type)
  | column (item : Option ι) (name : String)
  | day (item : Option ι) (name : String)
deriving DecidableEq, Repr

/-- A column that a query shows, under its own name or another one. -/
structure Output (ι : Type) where
  value : Scalar ι
  shownAs : Option String
deriving DecidableEq, Repr

/-- An item that is joined to those before it where each pair of values is equal. -/
structure Join (ι : Type) where
  item : ι
  equalities : List (Scalar ι × Scalar ι)
deriving DecidableEq, Repr

/-- What a row has to satisfy. -/
inductive Predicate (ι : Type)
  | within (column : Scalar ι) (period : Period)
  | condition (text : String)
deriving DecidableEq

structure Select (ι : Type) where
  columns : List (Output ι)
  base : ι
  joins : List (Join ι)
  predicates : List (Predicate ι)
  /-- One row is kept of rows that agree in all columns. -/
  grouped : Bool
deriving DecidableEq

/-! ## Text -/

section Text

variable {ι : Type} [FromItem ι]

def qualifiedName (item : Option ι) (name : String) : String :=
  match item with
  | some i => FromItem.qualifier i ++ "." ++ name
  | none => name

def Scalar.sql : Scalar ι → String
  | column item name => qualifiedName item name
  | day item name => "cast(" ++ qualifiedName item name ++ " as date)"

def Output.sql (o : Output ι) : String :=
  match o.shownAs with
  | some name => o.value.sql ++ " AS " ++ name
  | none => o.value.sql

def Join.sql (j : Join ι) : String :=
  " JOIN " ++ FromItem.declaration j.item ++ " ON (" ++
    " AND ".intercalate (j.equalities.map fun (a, b) ↦ a.sql ++ " = " ++ b.sql) ++ ")"

/-- A day in a query. -/
def dateLiteral (d : Date) : String := "cast('" ++ d.text ++ "' as date)"

def Predicate.sql : Predicate ι → String
  | within column period =>
    column.sql ++ " >= " ++ dateLiteral period.first ++ " AND " ++ column.sql ++ " < " ++
      dateLiteral period.afterLast
  | condition text => "(" ++ text ++ ")"

namespace Select

/-- All items that a query reads. -/
def items (s : Select ι) : List ι := s.base :: s.joins.map Join.item

/-- The columns are grouped by their positions, which count from 1. -/
def groupSql (s : Select ι) : String :=
  if s.grouped then
    " GROUP BY " ++ ", ".intercalate ((List.range s.columns.length).map fun i ↦ toString (i + 1))
  else ""

def sql (s : Select ι) : String :=
  "SELECT " ++ ", ".intercalate (s.columns.map Output.sql) ++
    " FROM " ++ FromItem.declaration s.base ++ String.join (s.joins.map Join.sql) ++
    " WHERE " ++ " AND ".intercalate (s.predicates.map Predicate.sql) ++ s.groupSql

end Select

end Text

/-! ## Items -/

/-- The items of a simple query. -/
inductive Source
  /-- The raw events of a collection. -/
  | events (collection : String)
  | table (t : DailyTable)
deriving DecidableEq, Repr

def Source.name : Source → String
  | events collection => collection
  | table t => t.qualified

instance : FromItem Source := ⟨Source.name, Source.name⟩

/-- The items of an outer query: a table with the dimension, and the users that pass a filter. -/
inductive Part
  | daily (t : DailyTable)
  | filtered (inner : Select Source)
deriving DecidableEq

instance : FromItem Part where
  declaration
    | .daily t => t.qualified ++ " daily"
    | .filtered inner => "(" ++ inner.sql ++ ") filtered"
  qualifier
    | .daily _ => "daily"
    | .filtered _ => "filtered"

/-- The query of a step. -/
inductive Body
  | simple (s : Select Source)
  | outer (s : Select Part)
deriving DecidableEq

def Body.sql : Body → String
  | simple s => s.sql
  | outer s => s.sql

end Funnel
