/-!
# Catalogs of precomputed tables

A project keeps its precomputed tables in two schemas.  A catalog lists the tables of each project.
-/

namespace Funnel

/-- The schemas of precomputed tables. -/
inductive Schema
  | continuous
  | materialized
deriving DecidableEq, Repr

def Schema.name : Schema → String
  | continuous => "continuous"
  | materialized => "materialized"

/-- A precomputed table of daily users. -/
structure DailyTable where
  schema : Schema
  name : String
deriving DecidableEq, Repr

/-- The table as a `FROM` item and as the qualifier of its columns. -/
def DailyTable.qualified (t : DailyTable) : String := t.schema.name ++ "." ++ t.name

/-- The listings of one project. -/
structure ProjectTables where
  continuous : List String
  materialized : List String
deriving DecidableEq, Repr

namespace ProjectTables

def empty : ProjectTables := ⟨[], []⟩

def listing (tables : ProjectTables) : Schema → List String
  | .continuous => tables.continuous
  | .materialized => tables.materialized

/-- The listings with one more table. -/
def add (tables : ProjectTables) (t : DailyTable) : ProjectTables :=
  match t.schema with
  | .continuous => { tables with continuous := tables.continuous ++ [t.name] }
  | .materialized => { tables with materialized := tables.materialized ++ [t.name] }

end ProjectTables

/-- The tables of each project; a project has one entry. -/
structure Catalog where
  projects : List (String × ProjectTables)
deriving DecidableEq, Repr

namespace Catalog

def empty : Catalog := ⟨[]⟩

/-- The tables of a project; an unknown project has none. -/
def tables (c : Catalog) (project : String) : ProjectTables :=
  (c.projects.lookup project).getD .empty

/-- Gives a project these tables in place of those it had. -/
def set (c : Catalog) (project : String) (tables : ProjectTables) : Catalog :=
  ⟨c.projects.filter (·.1 ≠ project) ++ [(project, tables)]⟩

/-- The catalog with one more table. -/
def add (c : Catalog) (project : String) (t : DailyTable) : Catalog :=
  c.set project ((c.tables project).add t)

end Catalog

end Funnel
