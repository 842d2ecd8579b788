import Funnel.Proofs.Tables

/-!
# What a Compilation Leaves Unresolved

A compilation lists the user sets for which it had no table.  The list is the union of what the
steps miss one by one (`mem_unresolved_iff`), so it does not depend on the order of the steps or on
their repetition.  A step that misses a set reads raw events.  The converse has one exception: a
filter that mentions no column is applied to raw events although no table was needed for it
(`raw_events_unresolved`).
-/

namespace Funnel

/-! ## Lists of user sets -/

/-- A list in order without repetitions is known by its members. -/
theorem Unresolved.ext {u v : Unresolved} (h : ∀ set, set ∈ u ↔ set ∈ v) : u = v := by
  obtain ⟨us, hu⟩ := u
  obtain ⟨vs, hv⟩ := v
  have hmem : ∀ set, set ∈ us ↔ set ∈ vs := h
  have hsets : us = vs := by
    clear h
    induction us generalizing vs with
    | nil =>
      cases vs with
      | nil => rfl
      | cons b vs => exact absurd ((hmem b).2 List.mem_cons_self) List.not_mem_nil
    | cons a us ih =>
      cases vs with
      | nil => exact absurd ((hmem a).1 List.mem_cons_self) List.not_mem_nil
      | cons b vs =>
        rw [List.pairwise_cons] at hu hv
        have hfirst : a = b := by
          rcases List.mem_cons.1 ((hmem a).1 List.mem_cons_self) with h | hab
          · exact h
          rcases List.mem_cons.1 ((hmem b).2 List.mem_cons_self) with h | hba
          · exact h.symm
          · exact absurd ((hu.1 b hba).trans (hv.1 a hab)) (UserSet.not_precedes_self a)
        subst hfirst
        have hrest : us = vs := by
          refine ih hu.2 vs hv.2 fun set ↦ ?_
          have hset := hmem set
          rw [List.mem_cons, List.mem_cons] at hset
          constructor
          · intro hin
            rcases hset.1 (.inr hin) with rfl | h
            · exact absurd (hu.1 set hin) (UserSet.not_precedes_self set)
            · exact h
          · intro hin
            rcases hset.2 (.inr hin) with rfl | h
            · exact absurd (hv.1 set hin) (UserSet.not_precedes_self set)
            · exact h
        rw [hrest]
  subst hsets
  rfl

theorem Unresolved.isEmpty_iff {u : Unresolved} : u.isEmpty = true ↔ ∀ set, set ∉ u := by
  rw [Unresolved.isEmpty, List.isEmpty_iff, List.eq_nil_iff_forall_not_mem]
  rfl

/-! ## What a step misses -/

/-- The user sets that a step leaves unresolved, where `nowhere` tells the sets without a table. -/
def Step.Misses (config : Config) (dimension : Option String) (nowhere : UserSet → Prop)
    (step : Step) (set : UserSet) : Prop :=
  match step.filter with
  | none => set = ⟨step.collection, dimension⟩ ∧ nowhere ⟨step.collection, dimension⟩
  | some f =>
    if f.supported then
      (∃ x ∈ f.references, nowhere ⟨step.collection, some x⟩ ∧
        set = config.fallback.userSet step.collection dimension x) ∨
      ∃ d, dimension = some d ∧ d ∉ f.references ∧ nowhere ⟨step.collection, some d⟩ ∧
        set = ⟨step.collection, some d⟩
    else set = ⟨step.collection, dimension⟩

namespace Setting

variable {s : Setting} {find : UserSet → Option DailyTable} {collection : String} {f : Filter}

theorem mem_uncoveredColumns {x : String} :
    x ∈ uncoveredColumns find collection f ↔
      x ∈ f.references ∧ find ⟨collection, some x⟩ = none := by
  simp [uncoveredColumns, columnTable, Filter.mem_columns]

theorem planFiltered_of_not_supported (h : f.supported = false) :
    s.planFiltered find collection f =
      ⟨.simple (s.fromEvents collection s.dimension (some f.render)),
        [⟨collection, s.dimension⟩]⟩ := by
  obtain ⟨e, he⟩ := Filter.rewriteWith_of_not_supported h
    fun x ↦ (columnSource find collection f x).map Source.name
  simp only [planFiltered, he]

/-- Besides the columns without a table, a supported filter misses the table of a dimension that it
does not mention. -/
theorem planFiltered_missing_of_supported (h : f.supported = true) :
    (s.planFiltered find collection f).missing =
      (uncoveredColumns find collection f).map
          (s.config.fallback.userSet collection s.dimension) ++
        (s.dimension.toList.filter fun d ↦
          !f.mentions d && (columnTable find collection d).isNone).map
            (fun d ↦ ⟨collection, some d⟩) := by
  obtain ⟨condition, hcondition⟩ := Filter.rewriteWith_of_supported h
    fun x ↦ (columnSource find collection f x).map Source.name
  simp only [planFiltered, hcondition]
  cases s.dimension with
  | none => simp
  | some d =>
    cases hmentions : f.mentions d with
    | true => simp [hmentions]
    | false =>
      cases htable : columnTable find collection d with
      | none => simp [hmentions, htable]
      | some t => simp [hmentions, htable]

/-- What a plan misses is what its step misses. -/
theorem mem_plan_missing {step : Step} {set : UserSet} :
    set ∈ (s.plan find step).missing ↔
      step.Misses s.config s.dimension (fun set ↦ find set = none) set := by
  unfold plan Step.Misses
  cases step.filter with
  | none =>
    cases hfind : find ⟨step.collection, s.dimension⟩ with
    | none => simp [planUnfiltered, hfind]
    | some t => simp [planUnfiltered, hfind]
  | some f =>
    cases hsupported : f.supported with
    | false => simp [planFiltered_of_not_supported hsupported, hsupported]
    | true =>
      simp only [planFiltered_missing_of_supported hsupported, hsupported, if_true,
        List.mem_append, List.mem_map, mem_uncoveredColumns, and_assoc]
      refine or_congr ⟨?_, ?_⟩ ⟨?_, ?_⟩
      · rintro ⟨x, hx, hnone, rfl⟩
        exact ⟨x, hx, hnone, rfl⟩
      · rintro ⟨x, hx, hnone, rfl⟩
        exact ⟨x, hx, hnone, rfl⟩
      · rintro ⟨d, hd, rfl⟩
        simp only [List.mem_filter, Option.mem_toList, Bool.and_eq_true, Bool.not_eq_true',
          Option.isNone_iff_eq_none] at hd
        obtain ⟨hdim, hmentions, hnone⟩ := hd
        exact ⟨d, hdim, by simpa [Filter.mentions] using hmentions, hnone, rfl⟩
      · rintro ⟨d, hdim, hmentions, hnone, rfl⟩
        refine ⟨d, ?_, rfl⟩
        simp [hdim, Filter.mentions, hmentions, columnTable, hnone]

end Setting

/-! ## What a compilation misses -/

/-- A request that is accepted has a period and is compiled to the plans of its steps. -/
theorem compile_eq_ok_iff {config : Config} {registry : Registry} {r : Request} {c : Compiled} :
    (compile config registry r).result = .ok c ↔ ∃ period, r.check config = .ok period ∧
      Setting.compiled ⟨config, period, r.dimension⟩
        (registry.table r.project config.connectorField) r.steps = c := by
  rw [compile_result]
  cases r.check config with
  | error e => simp [Except.map]
  | ok period => simp [Except.map]

theorem compile_of_check {config : Config} {r : Request} {period : Period} (registry : Registry)
    (h : r.check config = .ok period) :
    (compile config registry r).result = .ok (Setting.compiled ⟨config, period, r.dimension⟩
      (registry.table r.project config.connectorField) r.steps) :=
  compile_eq_ok_iff.2 ⟨period, h, rfl⟩

/-- The unresolved sets are exactly what the steps miss, and the order and the repetition of steps
do not matter. -/
theorem mem_unresolved_iff {config : Config} {registry : Registry} {r : Request} {c : Compiled}
    (h : (compile config registry r).result = .ok c) :
    (∀ set, set ∈ c.unresolved ↔ ∃ step ∈ r.steps,
      step.Misses config r.dimension (fun set ↦ ∀ schema,
        set.tableName config.connectorField ∉ registry.listed r.project schema) set) ∧
    ∀ steps c', (∀ step, step ∈ steps ↔ step ∈ r.steps) →
      (compile config registry { r with steps := steps }).result = .ok c' →
      c'.unresolved = c.unresolved := by
  have hmem : ∀ {r : Request} {c : Compiled}, (compile config registry r).result = .ok c →
      ∀ set, set ∈ c.unresolved ↔ ∃ step ∈ r.steps,
        step.Misses config r.dimension (fun set ↦ ∀ schema,
          set.tableName config.connectorField ∉ registry.listed r.project schema) set := by
    intro r c h set
    obtain ⟨period, -, rfl⟩ := compile_eq_ok_iff.1 h
    simp [Setting.compiled, Setting.plans, Setting.mem_plan_missing, Registry.table_eq_none_iff]
  refine ⟨hmem h, fun steps c' hsteps h' ↦ Unresolved.ext fun set ↦ ?_⟩
  rw [hmem h', hmem h]
  simp only [hsteps]

/-- A breakdown by region, for a registry that fails to list the materialized tables. -/
theorem unresolved_of_repeated_steps :
    let registry : Registry := .withFailing
      (.ofCatalog ⟨[("shop", ⟨["_users_daily_buy_by_plan"], ["_users_daily_visit_by_region"]⟩)]⟩)
      (· = .materialized)
    let visit : Step := ⟨"visit", none⟩
    let buy : Step := ⟨"buy", some (.logical .and
      (.binary .eq (.column (.plain "plan")) (.value (.string "pro")))
      (.binary .gt (.column (.plain "price")) (.value (.number "10"))))⟩
    let r : Request := ⟨"shop", [visit, buy], some "region", ⟨2024, 2, 1, by decide⟩,
      ⟨2024, 2, 29, by decide⟩⟩
    ∃ c c', (compile .default registry r).result = .ok c ∧
      (compile .default registry { r with steps := [buy, visit, buy] }).result = .ok c' ∧
      c.unresolved.sets = [⟨"buy", none⟩, ⟨"buy", some "region"⟩, ⟨"visit", some "region"⟩] ∧
      c'.unresolved = c.unresolved := by
  intro registry visit buy r
  let period : Period := ⟨⟨2024, 2, 1, by decide⟩, ⟨2024, 3, 1, by decide⟩⟩
  have hcheck : Request.check .default r = .ok period := by decide
  have hcheck' : Request.check .default { r with steps := [buy, visit, buy] } = .ok period := by
    decide
  have hc := compile_of_check registry hcheck
  have hc' := compile_of_check registry hcheck'
  refine ⟨_, _, hc, hc', by decide, (mem_unresolved_iff hc).2 [buy, visit, buy] _ ?_ hc'⟩
  intro step
  change step ∈ [buy, visit, buy] ↔ step ∈ [visit, buy]
  simp only [List.mem_cons, List.not_mem_nil, or_false]
  grind

/-! ## Raw events -/

/-- The query of a step, or its inner query, reads the raw events of a collection. -/
def Body.Scans (collection : String) : Body → Prop
  | simple s => .events collection ∈ s.items
  | outer s => ∃ inner, .filtered inner ∈ s.items ∧ .events collection ∈ inner.items

/-- The step has a supported filter that mentions no column, and its dimension, if there is one,
has a table: there is nothing that the step could miss. -/
def Step.NothingToMiss (dimension : Option String) (find : UserSet → Option DailyTable)
    (step : Step) : Prop :=
  ∃ f, step.filter = some f ∧ f.supported = true ∧ f.references = [] ∧
    ∀ d, dimension = some d → find ⟨step.collection, some d⟩ ≠ none

namespace Setting

variable {s : Setting} {find : UserSet → Option DailyTable} {collection : String} {f : Filter}

theorem events_mem_fromEvents (dimension condition : Option String) :
    .events collection ∈ (s.fromEvents collection dimension condition).items :=
  List.mem_cons_self

theorem items_fromJoined {base : Source} {day moment : Scalar Source} {tables : List DailyTable}
    {bucket : Option (Scalar Source)} {condition : String} :
    (s.fromJoined base day moment tables bucket condition).items = base :: tables.map .table := by
  simp [Select.items, fromJoined, joinTable, Function.comp_def]

theorem coveringTables_eq_nil_iff :
    coveringTables find collection f = [] ↔
      ∀ x ∈ f.references, find ⟨collection, some x⟩ = none := by
  simp [coveringTables, columnTable, Filter.mem_columns]

theorem uncoveredColumns_eq_nil_iff :
    uncoveredColumns find collection f = [] ↔
      ∀ x ∈ f.references, find ⟨collection, some x⟩ ≠ none := by
  simp [uncoveredColumns, columnTable, Filter.mem_columns]

/-- The query of a filter reads raw events if some column has no table, or if there is no column. -/
theorem events_mem_filtered_iff (condition : String) (shown : Option String) :
    .events collection ∈ (s.filtered find collection f condition shown).items ↔
      uncoveredColumns find collection f ≠ [] ∨ f.references = [] := by
  unfold filtered
  cases hcovering : coveringTables find collection f with
  | nil =>
    refine iff_of_true (events_mem_fromEvents _ _) ?_
    rw [coveringTables_eq_nil_iff] at hcovering
    cases hreferences : f.references with
    | nil => exact .inr rfl
    | cons x xs =>
      refine .inl fun hnil ↦ ?_
      have hx : x ∈ f.references := by simp [hreferences]
      exact uncoveredColumns_eq_nil_iff.1 hnil x hx (hcovering x hx)
  | cons first others =>
    have hreferences : f.references ≠ [] := by
      intro hnil
      have : coveringTables find collection f = [] := by simp [coveringTables_eq_nil_iff, hnil]
      simp [this] at hcovering
    simp only [hreferences, or_false]
    cases huncovered : uncoveredColumns find collection f with
    | nil => simp [items_fromJoined]
    | cons x xs => simp [items_fromJoined]

theorem scans_withDimension (t : DailyTable) (d : String) (inner : Select Source) :
    (Body.outer (s.withDimension t d inner)).Scans collection ↔
      .events collection ∈ inner.items := by
  simp [Body.Scans, Select.items, withDimension]

theorem nothingToMiss_iff {step : Step} (hfilter : step.filter = some f)
    (hsupported : f.supported = true) (dimension : Option String) :
    step.NothingToMiss dimension find ↔
      f.references = [] ∧ ∀ d, dimension = some d → find ⟨step.collection, some d⟩ ≠ none := by
  simp [Step.NothingToMiss, hfilter, hsupported]

/-- The plan of a supported filter reads raw events if it misses a table, or if there is nothing
to miss. -/
theorem scans_planFiltered_iff (hsupported : f.supported = true) :
    (s.planFiltered find collection f).body.Scans collection ↔
      (s.planFiltered find collection f).missing ≠ [] ∨
        f.references = [] ∧ ∀ d, s.dimension = some d → find ⟨collection, some d⟩ ≠ none := by
  rw [planFiltered_missing_of_supported hsupported]
  obtain ⟨condition, hcondition⟩ := Filter.rewriteWith_of_supported hsupported
    fun x ↦ (columnSource find collection f x).map Source.name
  simp only [planFiltered, hcondition]
  cases s.dimension with
  | none => simp [Body.Scans, events_mem_filtered_iff]
  | some d =>
    cases hmentions : f.mentions d with
    | true =>
      have hreferences : f.references ≠ [] :=
        List.ne_nil_of_mem (Filter.mentions_iff.1 hmentions)
      simp [Body.Scans, events_mem_filtered_iff, hreferences, hmentions]
    | false =>
      cases htable : columnTable find collection d with
      | none => simp [Body.Scans, events_mem_fromEvents, hmentions, htable]
      | some t =>
        have hfind : find ⟨collection, some d⟩ = some t := htable
        simp [scans_withDimension, events_mem_filtered_iff, hmentions, htable, hfind]

/-- A plan reads raw events exactly if it misses a table, or if there was nothing to miss. -/
theorem scans_plan_iff (step : Step) :
    (s.plan find step).body.Scans step.collection ↔
      (s.plan find step).missing ≠ [] ∨ step.NothingToMiss s.dimension find := by
  cases hfilter : step.filter with
  | none =>
    have hnothing : ¬ step.NothingToMiss s.dimension find := by
      rintro ⟨f, hf, -⟩
      simp [hfilter] at hf
    simp only [plan, hfilter, planUnfiltered, hnothing, or_false]
    cases find ⟨step.collection, s.dimension⟩ with
    | none => simp [Body.Scans, events_mem_fromEvents]
    | some t => simp [Body.Scans, Select.items, fromTable]
  | some f =>
    simp only [plan, hfilter]
    cases hsupported : f.supported with
    | false =>
      rw [planFiltered_of_not_supported hsupported]
      exact iff_of_true (events_mem_fromEvents _ _) (.inl (List.cons_ne_nil _ _))
    | true =>
      rw [nothingToMiss_iff hfilter hsupported]
      exact scans_planFiltered_iff hsupported

theorem missing_of_nothingToMiss {step : Step} (h : step.NothingToMiss s.dimension find) :
    (s.plan find step).missing = [] := by
  obtain ⟨f, hfilter, hsupported, hreferences, hdim⟩ := h
  rw [List.eq_nil_iff_forall_not_mem]
  intro set hset
  rw [mem_plan_missing] at hset
  simp only [Step.Misses, hfilter, hsupported, if_true, hreferences] at hset
  rcases hset with ⟨x, hx, -⟩ | ⟨d, hd, -, hnone, -⟩
  · exact absurd hx List.not_mem_nil
  · exact hdim d hd hnone

end Setting

/-- The plans behind a compilation: the statement is made of their queries and the unresolved sets
are what they miss.  A step with something to miss adds an unresolved set exactly if its query reads
raw events; a step with nothing to miss reads raw events and adds none.  So nothing is unresolved
exactly if raw events are read only by steps with nothing to miss. -/
theorem raw_events_unresolved {config : Config} {registry : Registry} {r : Request} {c : Compiled}
    (h : (compile config registry r).result = .ok c) :
    ∃ period, r.check config = .ok period ∧
      let s : Setting := ⟨config, period, r.dimension⟩
      let find := registry.table r.project config.connectorField
      let plans := r.steps.map (s.plan find)
      c.sql = s.statementSql (plans.map StepPlan.body) ∧
      (∀ set, set ∈ c.unresolved ↔ ∃ p ∈ plans, set ∈ p.missing) ∧
      (∀ step ∈ r.steps, ¬ step.NothingToMiss r.dimension find →
        ((s.plan find step).missing ≠ [] ↔ (s.plan find step).body.Scans step.collection)) ∧
      (∀ step ∈ r.steps, step.NothingToMiss r.dimension find →
        (s.plan find step).missing = [] ∧ (s.plan find step).body.Scans step.collection) ∧
      (c.unresolved.isEmpty = true ↔ ∀ step ∈ r.steps,
        (s.plan find step).body.Scans step.collection → step.NothingToMiss r.dimension find) := by
  obtain ⟨period, hcheck, rfl⟩ := compile_eq_ok_iff.1 h
  refine ⟨period, hcheck, rfl, ?_, ?_, ?_, ?_⟩
  · intro set
    simp [Setting.compiled, Setting.plans]
  · intro step _ hsomething
    rw [Setting.scans_plan_iff]
    exact (or_iff_left hsomething).symm
  · intro step _ hnothing
    exact ⟨Setting.missing_of_nothingToMiss hnothing,
      (Setting.scans_plan_iff step).2 (.inr hnothing)⟩
  · have hempty : (Setting.compiled ⟨config, period, r.dimension⟩
        (registry.table r.project config.connectorField) r.steps).unresolved.isEmpty = true ↔
        ∀ step ∈ r.steps, (Setting.plan ⟨config, period, r.dimension⟩
          (registry.table r.project config.connectorField) step).missing = [] := by
      rw [Unresolved.isEmpty_iff]
      simp only [Setting.compiled, Setting.plans, Unresolved.mem_ofList, List.mem_flatMap,
        List.mem_map, List.eq_nil_iff_forall_not_mem]
      grind
    rw [hempty]
    refine forall₂_congr fun step _ ↦ ?_
    rw [Setting.scans_plan_iff]
    constructor
    · intro hmissing hscans
      exact hscans.resolve_left (not_not_intro hmissing)
    · intro himp
      by_contra hmissing
      exact hmissing (Setting.missing_of_nothingToMiss (himp (.inl hmissing)))

/-- A filter without columns is applied to raw events although nothing is unresolved. -/
theorem raw_events_of_constant_filter :
    let registry : Registry := .ofCatalog .empty
    let step : Step :=
      ⟨"visit", some (.binary .eq (.value (.number "1")) (.value (.number "1")))⟩
    let r : Request := ⟨"shop", [step], none, ⟨2024, 2, 1, by decide⟩, ⟨2024, 2, 29, by decide⟩⟩
    ∃ c period, (compile .default registry r).result = .ok c ∧ c.unresolved.isEmpty = true ∧
      (Setting.plan ⟨.default, period, none⟩ (registry.table "shop" "_user") step).body.Scans
        "visit" := by
  intro registry step r
  have hcheck : Request.check .default r =
      .ok ⟨⟨2024, 2, 1, by decide⟩, ⟨2024, 3, 1, by decide⟩⟩ := by decide
  have hc := compile_of_check registry hcheck
  obtain ⟨period, -, -, -, -, hnothing, hempty⟩ := raw_events_unresolved hc
  have hstep : step.NothingToMiss none (registry.table "shop" "_user") :=
    ⟨_, rfl, by decide, by decide, by simp⟩
  refine ⟨_, period, hc, hempty.2 ?_, (hnothing step (List.mem_singleton.2 rfl) hstep).2⟩
  intro other hother _
  rw [List.mem_singleton.1 hother]
  exact hstep

end Funnel
