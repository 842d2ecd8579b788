import Funnel.Proofs.Building
import Funnel.Proofs.Lookups
import Mathlib

/-!
# What the Fallback of a Configuration Changes

A configuration chooses which user set is reported for a column without a table.  The choice is
bookkeeping: it changes neither what is looked up nor the statement.  Of the unresolved sets it only
changes the breakdowns, because each step reports sets of its own collection and reports some set
under every fallback or under none (`compile_withFallback`).
-/

namespace Funnel

/-! ## Steps -/

/-- What a step misses is a set of its collection. -/
theorem Step.Misses.collection_eq {config : Config} {dimension : Option String}
    {nowhere : UserSet → Prop} {step : Step} {set : UserSet}
    (h : step.Misses config dimension nowhere set) : set.collection = step.collection := by
  unfold Step.Misses at h
  cases hfilter : step.filter with
  | none =>
    simp only [hfilter] at h
    rw [h.1]
  | some f =>
    simp only [hfilter] at h
    cases hsupported : f.supported with
    | false =>
      simp only [hsupported, Bool.false_eq_true, if_false] at h
      rw [h]
    | true =>
      simp only [hsupported, if_true] at h
      rcases h with ⟨x, -, -, rfl⟩ | ⟨d, -, -, -, rfl⟩
      · cases config.fallback <;> rfl
      · rfl

/-- A step that misses something misses something under every fallback. -/
theorem Step.Misses.withFallback {config : Config} {dimension : Option String}
    {nowhere : UserSet → Prop} {step : Step} {set : UserSet}
    (h : step.Misses config dimension nowhere set) (mode : Fallback) :
    ∃ other, step.Misses { config with fallback := mode } dimension nowhere other := by
  unfold Step.Misses at h ⊢
  cases hfilter : step.filter with
  | none =>
    simp only [hfilter] at h ⊢
    exact ⟨set, h⟩
  | some f =>
    simp only [hfilter] at h ⊢
    cases hsupported : f.supported with
    | false =>
      simp only [hsupported, Bool.false_eq_true, if_false] at h ⊢
      exact ⟨set, h⟩
    | true =>
      simp only [hsupported, if_true] at h ⊢
      rcases h with ⟨x, hx, hnone, -⟩ | ⟨d, hd, hmentions, hnone, hset⟩
      · exact ⟨_, .inl ⟨x, hx, hnone, rfl⟩⟩
      · exact ⟨set, .inr ⟨d, hd, hmentions, hnone, hset⟩⟩

/-! ## Plans -/

namespace Setting

/-- The setting with another fallback. -/
def withFallback (s : Setting) (mode : Fallback) : Setting :=
  { s with config := { s.config with fallback := mode } }

variable (s : Setting) (mode : Fallback) (find : UserSet → Option DailyTable)

@[simp] theorem dimension_withFallback : (s.withFallback mode).dimension = s.dimension := rfl

@[simp] theorem fromEvents_withFallback :
    (s.withFallback mode).fromEvents = s.fromEvents := rfl

@[simp] theorem filtered_withFallback : (s.withFallback mode).filtered = s.filtered := rfl

@[simp] theorem withDimension_withFallback :
    (s.withFallback mode).withDimension = s.withDimension := rfl

/-- The query of a step is the same under every fallback. -/
theorem body_plan_withFallback (step : Step) :
    ((s.withFallback mode).plan find step).body = (s.plan find step).body := by
  unfold plan
  cases step.filter with
  | none => rfl
  | some f =>
    unfold planFiltered
    simp only [dimension_withFallback, fromEvents_withFallback, filtered_withFallback,
      withDimension_withFallback]
    split
    · rfl
    · cases s.dimension with
      | none => rfl
      | some d =>
        dsimp only
        split
        · rfl
        · split <;> rfl

/-- The statement of some steps is the same under every fallback. -/
theorem sql_compiled_withFallback (steps : List Step) :
    ((s.withFallback mode).compiled find steps).sql = (s.compiled find steps).sql := by
  have hbodies : ((s.withFallback mode).plans find steps).map StepPlan.body =
      (s.plans find steps).map StepPlan.body := by
    simp only [plans, List.map_map]
    exact List.map_congr_left fun step _ ↦ body_plan_withFallback s mode find step
  have hstatement : (s.withFallback mode).statementSql = s.statementSql := rfl
  simp only [compiled, hbodies, hstatement]

/-- Under every fallback the sets of the same collections are unresolved. -/
theorem collections_compiled_withFallback {steps : List Step} {set : UserSet}
    (h : set ∈ (s.compiled find steps).unresolved) :
    ∃ other ∈ ((s.withFallback mode).compiled find steps).unresolved,
      other.collection = set.collection := by
  obtain ⟨step, hstep, hmisses⟩ := mem_unresolved_compiled.1 h
  obtain ⟨other, hother⟩ := hmisses.withFallback mode
  refine ⟨other, mem_unresolved_compiled.2 ⟨step, hstep, hother⟩, ?_⟩
  rw [hother.collection_eq, hmisses.collection_eq]

end Setting

/-! ## Compilations -/

/-- Another fallback changes neither what is asked for, nor the error, nor the statement.  The
unresolved sets are of the same collections, so there are some under both fallbacks or none. -/
theorem compile_withFallback (config : Config) (registry : Registry) (r : Request)
    (mode : Fallback) :
    let compilation := compile config registry r
    let other := compile { config with fallback := mode } registry r
    other.listings = compilation.listings ∧
    (∀ e, other.result = .error e ↔ compilation.result = .error e) ∧
    ∀ c, compilation.result = .ok c → ∃ c', other.result = .ok c' ∧ c'.sql = c.sql ∧
      (∀ collection, (∃ set ∈ c'.unresolved, set.collection = collection) ↔
        ∃ set ∈ c.unresolved, set.collection = collection) ∧
      c'.unresolved.isEmpty = c.unresolved.isEmpty := by
  intro compilation other
  have hcheck : Request.check { config with fallback := mode } r = r.check config := rfl
  refine ⟨?_, fun e ↦ ?_, fun c hc ↦ ?_⟩
  · simp only [compilation, other, compile_listings, hcheck]
  · simp only [compilation, other, compile_result, hcheck]
    cases r.check config <;> simp [Except.map]
  · obtain ⟨period, hperiod, rfl⟩ := compile_eq_ok_iff.1 hc
    let s : Setting := ⟨config, period, r.dimension⟩
    let find := registry.table r.project config.connectorField
    have hother : other.result = .ok ((s.withFallback mode).compiled find r.steps) :=
      compile_of_check registry hperiod
    have hcollections (collection : String) :
        (∃ set ∈ ((s.withFallback mode).compiled find r.steps).unresolved,
          set.collection = collection) ↔
        ∃ set ∈ (s.compiled find r.steps).unresolved, set.collection = collection := by
      constructor
      · rintro ⟨set, hset, rfl⟩
        -- The fallback of the configuration leads back to its own setting.
        exact (s.withFallback mode).collections_compiled_withFallback config.fallback find hset
      · rintro ⟨set, hset, rfl⟩
        exact s.collections_compiled_withFallback mode find hset
    refine ⟨_, hother, s.sql_compiled_withFallback mode find r.steps, hcollections, ?_⟩
    rw [Bool.eq_iff_iff, Unresolved.isEmpty_iff, Unresolved.isEmpty_iff]
    constructor
    · intro h set hset
      obtain ⟨set', hset', -⟩ := (hcollections set.collection).2 ⟨set, hset, rfl⟩
      exact h set' hset'
    · intro h set hset
      obtain ⟨set', hset', -⟩ := (hcollections set.collection).1 ⟨set, hset, rfl⟩
      exact h set' hset'

/-- Two of three columns of a filter have no table.  The same statement is compiled whether they are
reported by name or not. -/
theorem compile_withFallback_of_two_columns :
    let registry : Registry := .withFailing
      (.ofCatalog ⟨[("shop", ⟨[], ["_users_daily_buy_by_plan"]⟩)]⟩) (· = .continuous)
    let r : Request := ⟨"shop", [⟨"buy", some (.logical .and
      (.binary .eq (.column (.plain "plan")) (.value (.string "pro")))
      (.binary .gt (.column (.plain "price")) (.column (.plain "paid"))))⟩, ⟨"visit", none⟩],
      some "region", ⟨2024, 2, 1, by decide⟩, ⟨2024, 2, 29, by decide⟩⟩
    ∃ c c', (compile .default registry r).result = .ok c ∧
      (compile { Config.default with fallback := .column } registry r).result = .ok c' ∧
      c'.sql = c.sql ∧
      c.unresolved.sets = [⟨"buy", none⟩, ⟨"buy", some "region"⟩, ⟨"visit", some "region"⟩] ∧
      c'.unresolved.sets = [⟨"buy", some "paid"⟩, ⟨"buy", some "price"⟩, ⟨"buy", some "region"⟩,
        ⟨"visit", some "region"⟩] := by
  intro registry r
  have hcheck : Request.check .default r =
      .ok ⟨⟨2024, 2, 1, by decide⟩, ⟨2024, 3, 1, by decide⟩⟩ := by decide
  have hc := compile_of_check registry hcheck
  have hcheck' : Request.check { Config.default with fallback := .column } r =
      .ok ⟨⟨2024, 2, 1, by decide⟩, ⟨2024, 3, 1, by decide⟩⟩ := hcheck
  obtain ⟨-, -, hok⟩ := compile_withFallback .default registry r .column
  obtain ⟨c', hc', hsql, -⟩ := hok _ hc
  obtain rfl := Except.ok.inj ((compile_of_check registry hcheck').symm.trans hc')
  exact ⟨_, _, hc, hc', hsql, by decide +kernel, by decide +kernel⟩

end Funnel
