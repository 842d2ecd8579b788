import Funnel.Catalog.Basic
import Funnel.Json.Shape

/-!
# Catalogs in JSON

A catalog has one field, an object with a member for each project.  If a project is repeated, its
last member counts.  What is not given is empty.
-/

namespace Funnel

def ProjectTables.ofJson? (v : Json.Value) : Option ProjectTables := do
  let r ← v.record? ["continuous", "materialized"]
  let names (field : String) : Option (List String) :=
    Json.optional r field (Json.Value.list? Json.Value.text?) []
  return ⟨← names "continuous", ← names "materialized"⟩

namespace Catalog

def ofMembers? (members : List (String × Json.Value)) : Option Catalog :=
  members.foldlM (fun c (project, v) ↦ return c.set project (← ProjectTables.ofJson? v)) empty

def ofJson? (v : Json.Value) : Option Catalog := do
  let r ← v.record? ["projects"]
  Json.optional r "projects" (fun v ↦ v.members? >>= ofMembers?) empty

end Catalog

end Funnel
