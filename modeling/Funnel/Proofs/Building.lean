import Funnel.Proofs.Unresolved
import Mathlib

/-!
# Building the Tables That Were Missed

What becomes of the unresolved sets when the registry lists other tables.  More tables never add a
set, and it does not matter which schema lists a table (`unresolved_subset`).  A compilation that
reports the columns of supported filters reports every table that it looked up in vain, so nothing
is unresolved once these tables are built (`unresolved_isEmpty_of_built`).
-/

namespace Funnel

/-! ## More tables -/

/-- Some schema of the project has the table, according to the first answers of the registry. -/
def Registry.Lists (registry : Registry) (project name : String) : Prop :=
  ∃ schema, name ∈ registry.listed project schema

theorem Registry.table_eq_none_iff_not_lists {registry : Registry} {project connector : String}
    {set : UserSet} :
    registry.table project connector set = none ↔
      ¬ registry.Lists project (set.tableName connector) := by
  rw [Registry.table_eq_none_iff, Registry.Lists, not_exists]

/-- What a step misses it also misses if more sets are without a table. -/
theorem Step.Misses.mono {config : Config} {dimension : Option String}
    {nowhere nowhere' : UserSet → Prop} {step : Step} {set : UserSet}
    (h : step.Misses config dimension nowhere set)
    (hle : ∀ other, nowhere other → nowhere' other) :
    step.Misses config dimension nowhere' set := by
  unfold Step.Misses at h ⊢
  cases hfilter : step.filter with
  | none =>
    simp only [hfilter] at h ⊢
    exact ⟨h.1, hle _ h.2⟩
  | some f =>
    simp only [hfilter] at h ⊢
    cases hsupported : f.supported with
    | false => simpa [hsupported] using h
    | true =>
      simp only [hsupported, if_true] at h ⊢
      rcases h with ⟨x, hx, hnone, hset⟩ | ⟨d, hd, hmentions, hnone, hset⟩
      · exact .inl ⟨x, hx, hle _ hnone, hset⟩
      · exact .inr ⟨d, hd, hmentions, hle _ hnone, hset⟩

theorem Setting.mem_unresolved_compiled {s : Setting} {find : UserSet → Option DailyTable}
    {steps : List Step} {set : UserSet} :
    set ∈ (s.compiled find steps).unresolved ↔
      ∃ step ∈ steps, step.Misses s.config s.dimension (fun other ↦ find other = none) set := by
  simp [Setting.compiled, Setting.plans, Setting.mem_plan_missing]

/-- Fewer sets are unresolved if each set that had a table still has one. -/
theorem Setting.unresolved_compiled_mono {s : Setting} {find find' : UserSet → Option DailyTable}
    (hle : ∀ set, find' set = none → find set = none) {steps : List Step} {set : UserSet}
    (h : set ∈ (s.compiled find' steps).unresolved) : set ∈ (s.compiled find steps).unresolved := by
  obtain ⟨step, hstep, hmisses⟩ := Setting.mem_unresolved_compiled.1 h
  exact Setting.mem_unresolved_compiled.2 ⟨step, hstep, hmisses.mono hle⟩

theorem Registry.table_eq_none_mono {registry registry' : Registry} {project : String}
    (hlists : ∀ name, registry.Lists project name → registry'.Lists project name)
    (connector : String) (set : UserSet) (h : registry'.table project connector set = none) :
    registry.table project connector set = none := by
  rw [Registry.table_eq_none_iff_not_lists] at h ⊢
  exact fun hmem ↦ h (hlists _ hmem)

/-- A registry that lists every table that another one lists leaves no other sets unresolved, and
the same ones if it lists no other tables. -/
theorem unresolved_subset {config : Config} {registry registry' : Registry} {r : Request}
    {c : Compiled} (h : (compile config registry r).result = .ok c)
    (hlists : ∀ name, registry.Lists r.project name → registry'.Lists r.project name) :
    ∃ c', (compile config registry' r).result = .ok c' ∧
      (∀ set ∈ c'.unresolved, set ∈ c.unresolved) ∧
      ((∀ name, registry'.Lists r.project name → registry.Lists r.project name) →
        c'.unresolved = c.unresolved) := by
  obtain ⟨period, hcheck, rfl⟩ := compile_eq_ok_iff.1 h
  have hsubset := Registry.table_eq_none_mono hlists config.connectorField
  refine ⟨_, compile_of_check registry' hcheck, ?_, fun hlists' ↦ Unresolved.ext fun set ↦ ?_⟩
  · exact fun set hset ↦ Setting.unresolved_compiled_mono hsubset hset
  · have hsuperset := Registry.table_eq_none_mono hlists' config.connectorField
    exact ⟨Setting.unresolved_compiled_mono hsubset, Setting.unresolved_compiled_mono hsuperset⟩

/-- First the continuous tables cannot be listed; then they can, and the materialized table has
become a continuous one. -/
theorem unresolved_subset_of_more_tables :
    let visits := "_users_daily_visit_by_region"
    let plans := "_users_daily_buy_by_plan"
    let registry : Registry := .withFailing
      (.ofCatalog ⟨[("shop", ⟨[plans], [visits]⟩)]⟩) (· = .continuous)
    let registry' : Registry := .ofCatalog ⟨[("shop", ⟨[visits, plans], []⟩)]⟩
    let r : Request := ⟨"shop", [⟨"visit", none⟩, ⟨"buy", some (.logical .and
      (.binary .eq (.column (.plain "plan")) (.value (.string "pro")))
      (.binary .gt (.column (.plain "price")) (.value (.number "10"))))⟩], some "region",
      ⟨2024, 2, 1, by decide⟩, ⟨2024, 2, 29, by decide⟩⟩
    let config : Config := { Config.default with fallback := .column }
    ∃ c c', (compile config registry r).result = .ok c ∧
      (compile config registry' r).result = .ok c' ∧
      c.unresolved.sets = [⟨"buy", some "plan"⟩, ⟨"buy", some "price"⟩, ⟨"buy", some "region"⟩] ∧
      c'.unresolved.sets = [⟨"buy", some "price"⟩, ⟨"buy", some "region"⟩] ∧
      ∀ set ∈ c'.unresolved, set ∈ c.unresolved := by
  intro visits plans registry registry' r config
  have hcheck : Request.check config r =
      .ok ⟨⟨2024, 2, 1, by decide⟩, ⟨2024, 3, 1, by decide⟩⟩ := by decide
  have hlists : ∀ name, registry.Lists r.project name → registry'.Lists r.project name := by
    rintro name ⟨schema, hname⟩
    cases schema with
    | continuous => cases hname
    | materialized => exact ⟨.continuous, List.mem_cons.2 (.inl (List.mem_singleton.1 hname))⟩
  have hc := compile_of_check registry hcheck
  obtain ⟨c', hc', hsubset, -⟩ := unresolved_subset hc hlists
  obtain rfl := Except.ok.inj ((compile_of_check registry' hcheck).symm.trans hc')
  exact ⟨_, _, hc, hc', by decide +kernel, by decide +kernel, hsubset⟩

/-! ## The tables that were missed -/

namespace Catalog

variable {c : Catalog} {project connector : String}

theorem tables_set (c : Catalog) (project : String) (tables : ProjectTables) :
    (c.set project tables).tables project = tables := by
  have hothers : (c.projects.filter (·.1 ≠ project)).lookup project = none := by
    rw [List.lookup_eq_none_iff]
    intro entry hentry
    have hne : entry.1 ≠ project := by simpa using (List.mem_filter.1 hentry).2
    simpa using hne.symm
  rw [Catalog.tables, Catalog.set, List.lookup_append, hothers]
  simp

theorem tables_add (c : Catalog) (project : String) (t : DailyTable) :
    (c.add project t).tables project = (c.tables project).add t := tables_set c project _

/-- The catalog after the tables of some user sets are built, each one in some schema. -/
def build (c : Catalog) (project connector : String) (schema : UserSet → Schema) :
    List UserSet → Catalog
  | [] => c
  | set :: sets => (c.add project ⟨schema set, set.tableName connector⟩).build project connector
      schema sets

theorem lists_iff {name : String} :
    (Registry.ofCatalog c).Lists project name ↔
      name ∈ (c.tables project).continuous ∨ name ∈ (c.tables project).materialized := by
  constructor
  · rintro ⟨schema, h⟩
    cases schema with
    | continuous => exact .inl h
    | materialized => exact .inr h
  · rintro (h | h)
    · exact ⟨.continuous, h⟩
    · exact ⟨.materialized, h⟩

theorem lists_add {name : String} (t : DailyTable) :
    (Registry.ofCatalog (c.add project t)).Lists project name ↔
      (Registry.ofCatalog c).Lists project name ∨ name = t.name := by
  rw [lists_iff, lists_iff, tables_add]
  obtain ⟨schema, table⟩ := t
  cases schema <;> simp only [ProjectTables.add, List.mem_append, List.mem_singleton] <;> grind

/-- A catalog lists what was built besides what it listed before. -/
theorem lists_build {name : String} (schema : UserSet → Schema) (sets : List UserSet) :
    (Registry.ofCatalog (c.build project connector schema sets)).Lists project name ↔
      (Registry.ofCatalog c).Lists project name ∨
        ∃ set ∈ sets, name = set.tableName connector := by
  induction sets generalizing c with
  | nil => simp [build]
  | cons set sets ih => rw [build, ih, lists_add, List.exists_mem_cons_iff, or_assoc]

end Catalog

/-- A step with a supported filter wants the tables of the columns and of a dimension that the
filter does not mention. -/
theorem Step.mem_wanted_of_supported {dimension : Option String} {step : Step} {f : Filter}
    (hfilter : step.filter = some f) (hsupported : f.supported = true) {set : UserSet} :
    set ∈ step.wanted dimension ↔
      (∃ x ∈ f.references, set = ⟨step.collection, some x⟩) ∨
        ∃ d, dimension = some d ∧ d ∉ f.references ∧ set = ⟨step.collection, some d⟩ := by
  have hmentions (d : String) : (!f.mentions d) = true ↔ d ∉ f.references := by
    rw [Bool.not_eq_true', ← Filter.mentions_iff, Bool.not_eq_true]
  simp only [Step.wanted, hfilter, hsupported, Bool.true_and, List.mem_append, List.mem_map,
    Filter.mem_columns, Option.mem_toList, Option.filter_eq_some_iff, hmentions, and_assoc,
    eq_comm (a := set)]

/-- If columns are reported by their own names, a step with a supported filter misses exactly the
sets without a table among those that it wants. -/
theorem Step.misses_iff_wanted {config : Config} (hmode : config.fallback = .column)
    {dimension : Option String} {nowhere : UserSet → Prop} {step : Step}
    (hsupported : ∀ f, step.filter = some f → f.supported = true) {set : UserSet} :
    step.Misses config dimension nowhere set ↔ set ∈ step.wanted dimension ∧ nowhere set := by
  cases hfilter : step.filter with
  | none =>
    simp only [Step.Misses, Step.wanted, hfilter, List.mem_singleton]
    exact and_congr_right fun hset ↦ by rw [hset]
  | some f =>
    have hf := hsupported f hfilter
    rw [Step.mem_wanted_of_supported hfilter hf]
    simp only [Step.Misses, hfilter, hf, if_true, hmode, Fallback.userSet]
    constructor
    · rintro (⟨x, hx, hnone, rfl⟩ | ⟨d, hd, hnot, hnone, rfl⟩)
      · exact ⟨.inl ⟨x, hx, rfl⟩, hnone⟩
      · exact ⟨.inr ⟨d, hd, hnot, rfl⟩, hnone⟩
    · rintro ⟨⟨x, hx, rfl⟩ | ⟨d, hd, hnot, rfl⟩, hnone⟩
      · exact .inl ⟨x, hx, hnone, rfl⟩
      · exact .inr ⟨d, hd, hnot, hnone, rfl⟩

/-- What is left unresolved are then the sets without a table among those that were looked up. -/
theorem Setting.mem_unresolved_iff_wanted {s : Setting} (hmode : s.config.fallback = .column)
    {find : UserSet → Option DailyTable} {steps : List Step}
    (hsupported : ∀ step ∈ steps, ∀ f, step.filter = some f → f.supported = true) {set : UserSet} :
    set ∈ (s.compiled find steps).unresolved ↔
      (∃ step ∈ steps, set ∈ step.wanted s.dimension) ∧ find set = none := by
  rw [Setting.mem_unresolved_compiled]
  constructor
  · rintro ⟨step, hstep, hmisses⟩
    obtain ⟨hwanted, hnone⟩ := (Step.misses_iff_wanted hmode (hsupported step hstep)).1 hmisses
    exact ⟨⟨step, hstep, hwanted⟩, hnone⟩
  · rintro ⟨⟨step, hstep, hwanted⟩, hnone⟩
    exact ⟨step, hstep,
      (Step.misses_iff_wanted hmode (hsupported step hstep)).2 ⟨hwanted, hnone⟩⟩

/-- If columns are reported by their own names and all filters are supported, the unresolved sets
are those that were looked up in vain.  Nothing is unresolved any more once they have got their
tables, whichever schemas these are built in. -/
theorem unresolved_isEmpty_of_built {config : Config} (hmode : config.fallback = .column)
    {catalog : Catalog} {r : Request}
    (hsupported : ∀ step ∈ r.steps, ∀ f, step.filter = some f → f.supported = true) {c : Compiled}
    (h : (compile config (.ofCatalog catalog) r).result = .ok c) (schema : UserSet → Schema) :
    let built := catalog.build r.project config.connectorField schema c.unresolved.sets
    (∀ set, set ∈ c.unresolved ↔ (∃ step ∈ r.steps, set ∈ step.wanted r.dimension) ∧
      ¬ (Registry.ofCatalog catalog).Lists r.project (set.tableName config.connectorField)) ∧
    ∃ c', (compile config (.ofCatalog built) r).result = .ok c' ∧
      c'.unresolved.isEmpty = true := by
  intro built
  obtain ⟨period, hcheck, rfl⟩ := compile_eq_ok_iff.1 h
  refine ⟨fun set ↦ ?_, _, compile_of_check _ hcheck, Unresolved.isEmpty_iff.2 fun set hset ↦ ?_⟩
  · rw [Setting.mem_unresolved_iff_wanted hmode hsupported,
      Registry.table_eq_none_iff_not_lists]
  · have hlists : ∀ name, (Registry.ofCatalog catalog).Lists r.project name →
        (Registry.ofCatalog built).Lists r.project name :=
      fun name hname ↦ (Catalog.lists_build schema _).2 (.inl hname)
    have hnone : (Registry.ofCatalog built).table r.project config.connectorField set = none :=
      ((Setting.mem_unresolved_iff_wanted hmode hsupported).1 hset).2
    -- What is unresolved now was unresolved before, so its table is one of those that were built.
    have hbefore := Setting.unresolved_compiled_mono
      (Registry.table_eq_none_mono hlists config.connectorField) hset
    refine Registry.table_eq_none_iff_not_lists.1 hnone ?_
    exact (Catalog.lists_build schema _).2 (.inr ⟨set, hbefore, rfl⟩)

/-- The tables of two steps by region and of a filter column are missed, and then built in both
schemas. -/
theorem unresolved_isEmpty_of_built_tables :
    let catalog : Catalog := ⟨[("shop", ⟨[], ["_users_daily_buy_by_plan"]⟩)]⟩
    let r : Request := ⟨"shop", [⟨"visit", none⟩, ⟨"buy", some (.logical .and
      (.binary .eq (.column (.plain "plan")) (.value (.string "pro")))
      (.binary .gt (.column (.plain "price")) (.value (.number "10"))))⟩], some "region",
      ⟨2024, 2, 1, by decide⟩, ⟨2024, 2, 29, by decide⟩⟩
    let config : Config := { Config.default with fallback := .column }
    let schema (set : UserSet) : Schema :=
      if set.collection = "buy" then .continuous else .materialized
    ∃ c c', (compile config (.ofCatalog catalog) r).result = .ok c ∧
      c.unresolved.sets =
        [⟨"buy", some "price"⟩, ⟨"buy", some "region"⟩, ⟨"visit", some "region"⟩] ∧
      (compile config (.ofCatalog (catalog.build "shop" "_user" schema c.unresolved.sets))
        r).result = .ok c' ∧
      c'.unresolved.isEmpty = true := by
  intro catalog r config schema
  have hcheck : Request.check config r =
      .ok ⟨⟨2024, 2, 1, by decide⟩, ⟨2024, 3, 1, by decide⟩⟩ := by decide
  have hc := compile_of_check (.ofCatalog catalog) hcheck
  have hsupported : ∀ step ∈ r.steps, ∀ f, step.filter = some f → f.supported = true := by
    intro step hstep f hf
    simp only [r, List.mem_cons, List.not_mem_nil, or_false] at hstep
    obtain rfl | rfl := hstep
    · cases hf
    · obtain rfl := Option.some.inj hf
      rfl
  obtain ⟨-, c', hc', hempty⟩ := unresolved_isEmpty_of_built rfl hsupported hc schema
  exact ⟨_, c', hc, by decide +kernel, hc', hempty⟩

end Funnel
