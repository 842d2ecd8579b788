import Funnel.Catalog.Basic

/-!
# Registries

A registry answers what tables a schema of a project has.  An answer may fail, and a second
question need not get the first answer.
-/

namespace Funnel

/-- `answer schema project k` is what the registry says when it is asked for a listing after `k`
earlier questions for the same one; `none` is a failure. -/
structure Registry where
  answer : Schema → String → Nat → Option (List String)

namespace Registry

/-- The registry that lists what a catalog holds. -/
def ofCatalog (c : Catalog) : Registry := ⟨fun schema project _ ↦ (c.tables project).listing schema⟩

/-- The registry in which some schemas cannot be listed. -/
def withFailing (r : Registry) (fails : Schema → Bool) : Registry :=
  ⟨fun schema project k ↦ if fails schema then none else r.answer schema project k⟩

end Registry

end Funnel
