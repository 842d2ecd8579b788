import Funnel.Proofs.Building
import Mathlib

/-!
# What a Compilation Reads of a Registry

A compilation looks up the tables of its steps by their names, and that is all it learns of a
registry.  Registries that list the same ones of these names, first among the continuous and then
among the materialized tables, are the same to it (`result_eq_of_agreeOn`): what else they list does
not matter, nor do other projects, the order of a listing and repetitions in it.  A listing that
fails is a listing without tables.
-/

namespace Funnel

/-! ## Names that are looked up -/

/-- The user sets whose tables a step looks up. -/
inductive Step.Needs (dimension : Option String) (step : Step) : UserSet → Prop
  | whole (h : step.filter = none) : Needs dimension step ⟨step.collection, dimension⟩
  | column {f : Filter} {x : String} (h : step.filter = some f) (hx : x ∈ f.references) :
    Needs dimension step ⟨step.collection, some x⟩
  /-- A filter that is not supported is applied to raw events, and they have the dimension. -/
  | dimension {f : Filter} {d : String} (h : step.filter = some f) (hsupported : f.supported = true)
    (hd : dimension = some d) (hmentions : d ∉ f.references) :
    Needs dimension step ⟨step.collection, some d⟩

theorem Step.mem_wanted_iff_needs {dimension : Option String} {step : Step} {set : UserSet} :
    set ∈ step.wanted dimension ↔ step.Needs dimension set := by
  cases hfilter : step.filter with
  | none =>
    simp only [Step.wanted, hfilter, List.mem_singleton]
    constructor
    · rintro rfl
      exact .whole hfilter
    · intro h
      cases h with
      | whole => rfl
      | column h => simp [hfilter] at h
      | dimension h => simp [hfilter] at h
  | some f =>
    have hneeds : step.Needs dimension set ↔
        (∃ x ∈ f.references, set = ⟨step.collection, some x⟩) ∨
          f.supported = true ∧ ∃ d, dimension = some d ∧ d ∉ f.references ∧
            set = ⟨step.collection, some d⟩ := by
      constructor
      · intro h
        cases h with
        | whole h => simp [hfilter] at h
        | column h hx =>
          obtain rfl := Option.some.inj (hfilter.symm.trans h)
          exact .inl ⟨_, hx, rfl⟩
        | dimension h hsupported hd hmentions =>
          obtain rfl := Option.some.inj (hfilter.symm.trans h)
          exact .inr ⟨hsupported, _, hd, hmentions, rfl⟩
      · rintro (⟨x, hx, rfl⟩ | ⟨hsupported, d, hd, hmentions, rfl⟩)
        · exact .column hfilter hx
        · exact .dimension hfilter hsupported hd hmentions
    rw [hneeds]
    cases hsupported : f.supported with
    | true => simp [Step.mem_wanted_of_supported hfilter hsupported]
    | false => simp [Step.wanted, hfilter, hsupported, Filter.mem_columns, eq_comm]

/-- The names of the tables that a request looks up. -/
def Request.LooksUp (r : Request) (connector name : String) : Prop :=
  ∃ step ∈ r.steps, ∃ set, step.Needs r.dimension set ∧ name = set.tableName connector

theorem Request.looksUp_iff {r : Request} {connector name : String} :
    r.LooksUp connector name ↔ name ∈ r.wanted.map (UserSet.tableName connector) := by
  simp only [Request.LooksUp, Request.wanted, List.mem_map, List.mem_flatMap,
    Step.mem_wanted_iff_needs]
  constructor
  · rintro ⟨step, hstep, set, hset, rfl⟩
    exact ⟨set, ⟨step, hstep, hset⟩, rfl⟩
  · rintro ⟨set, ⟨step, hstep, hset⟩, rfl⟩
    exact ⟨step, hstep, set, hset, rfl⟩

/-! ## Registries that agree -/

namespace Registry

/-- The registries list the same ones of some names among the continuous tables of a project, and
the same ones of the others among the materialized tables. -/
structure AgreeOn (names : String → Prop) (project : String) (registry registry' : Registry) :
    Prop where
  continuous : ∀ name, names name →
    (name ∈ registry.listed project .continuous ↔ name ∈ registry'.listed project .continuous)
  materialized : ∀ name, names name → name ∉ registry.listed project .continuous →
    (name ∈ registry.listed project .materialized ↔ name ∈ registry'.listed project .materialized)

theorem AgreeOn.table_eq {names : String → Prop} {project connector : String}
    {registry registry' : Registry} (h : AgreeOn names project registry registry') {set : UserSet}
    (hset : names (set.tableName connector)) :
    registry.table project connector set = registry'.table project connector set := by
  have hcontinuous := h.continuous _ hset
  dsimp only [Registry.table]
  by_cases hmem : set.tableName connector ∈ registry.listed project .continuous
  · rw [if_pos hmem, if_pos (hcontinuous.1 hmem)]
  · rw [if_neg hmem, if_neg fun hin ↦ hmem (hcontinuous.2 hin)]
    exact if_congr (h.materialized _ hset hmem) rfl rfl

/-- The registry in which some schemas have no tables. -/
def withEmpty (registry : Registry) (empties : Schema → Bool) : Registry :=
  ⟨fun schema project k ↦ if empties schema then some [] else registry.answer schema project k⟩

theorem listed_withFailing (registry : Registry) (fails : Schema → Bool) (project : String) :
    (registry.withFailing fails).listed project = (registry.withEmpty fails).listed project := by
  funext schema
  cases hfails : fails schema <;> simp [listed, withFailing, withEmpty, hfails]

theorem agreeOn_of_listed_eq {registry registry' : Registry} {project : String}
    (h : registry.listed project = registry'.listed project) (names : String → Prop) :
    AgreeOn names project registry registry' where
  continuous name _ := by rw [h]
  materialized name _ _ := by rw [h]

end Registry

/-! ## Results -/

/-- The result is determined by the tables of the sets that are looked up. -/
theorem compile_result_congr {config : Config} {registry registry' : Registry} {r : Request}
    (h : ∀ set ∈ r.wanted, registry.table r.project config.connectorField set =
      registry'.table r.project config.connectorField set) :
    (compile config registry r).result = (compile config registry' r).result := by
  have hplans (s : Setting) (hs : s.dimension = r.dimension) :
      s.plans (registry.table r.project config.connectorField) r.steps =
        s.plans (registry'.table r.project config.connectorField) r.steps := by
    refine List.map_congr_left fun step hstep ↦ Setting.plan_congr fun set hset ↦ h set ?_
    rw [hs] at hset
    exact List.mem_flatMap.2 ⟨step, hstep, hset⟩
  rw [compile_result, compile_result]
  congr 1
  funext period
  rw [Setting.compiled, Setting.compiled, hplans _ rfl]

/-- Two registries that list the same ones of the names that a request looks up give it one result.
A schema that cannot be listed gives the result of a schema without tables. -/
theorem result_eq_of_agreeOn (config : Config) (r : Request) :
    (∀ registry registry' : Registry,
      registry.AgreeOn (r.LooksUp config.connectorField) r.project registry' →
      (compile config registry r).result = (compile config registry' r).result) ∧
    ∀ (registry : Registry) (fails : Schema → Bool),
      (compile config (registry.withFailing fails) r).result =
        (compile config (registry.withEmpty fails) r).result := by
  have hagree (registry registry' : Registry)
      (h : registry.AgreeOn (r.LooksUp config.connectorField) r.project registry') :
      (compile config registry r).result = (compile config registry' r).result := by
    apply compile_result_congr
    intro set hset
    apply h.table_eq
    rw [Request.looksUp_iff]
    exact List.mem_map_of_mem hset
  refine ⟨hagree, fun registry fails ↦ hagree _ _ ?_⟩
  exact Registry.agreeOn_of_listed_eq (registry.listed_withFailing fails r.project) _

/-- The continuous tables cannot be listed, or are tables that nothing needs; the materialized ones
are listed in another order, once more, and for another project too. -/
theorem result_of_two_registries :
    let visits := "_users_daily_visit_by_region"
    let plans := "_users_daily_buy_by_plan"
    let registry : Registry := .withFailing
      (.ofCatalog ⟨[("shop", ⟨[visits], [visits, "_users_daily_visit", plans]⟩)]⟩) (· = .continuous)
    let registry' : Registry := .ofCatalog ⟨[("cafe", ⟨["_users_daily_buy_by_region"], []⟩),
      ("shop", ⟨["_users_daily_visit_by_plan"], [plans, visits, plans]⟩)]⟩
    let r : Request := ⟨"shop", [⟨"visit", none⟩,
        ⟨"buy", some (.binary .eq (.column (.plain "plan")) (.value (.string "pro")))⟩],
      some "region", ⟨2024, 2, 1, by decide⟩, ⟨2024, 2, 29, by decide⟩⟩
    ∃ c, (compile .default registry r).result = .ok c ∧
      (compile .default registry' r).result = .ok c ∧
      c.unresolved.sets = [⟨"buy", some "region"⟩] := by
  intro visits plans registry registry' r
  have hcheck : Request.check .default r =
      .ok ⟨⟨2024, 2, 1, by decide⟩, ⟨2024, 3, 1, by decide⟩⟩ := by decide
  have hagree : registry.AgreeOn (r.LooksUp "_user") "shop" registry' := by
    constructor
    · intro name hname
      rw [Request.looksUp_iff] at hname
      revert name
      decide +kernel
    · intro name hname
      rw [Request.looksUp_iff] at hname
      revert name
      decide +kernel
  have hc := compile_of_check registry hcheck
  refine ⟨_, hc, ?_, by decide +kernel⟩
  rw [← hc]
  exact ((result_eq_of_agreeOn .default r).1 registry registry' hagree).symm

end Funnel
