import Funnel.Proofs.Scoping

/-!
# The Columns of the Steps

Which columns the queries of a statement show and which they name.  The queries of the steps are
built in five ways, and the links, the queries around another query and the counts name the columns
of a step without looking at how it was built.  They need not: every step shows its day, its bucket
if there is a dimension, and its user, in that order, and a query inside another one shows day and
user (`forall_columns_shown`).  All of them keep one row of equal ones by grouping by all of their
columns; only the rows of a table that serves a step as it stands are not grouped.
-/

namespace Funnel

/-- What is shown under a name: a column of that name, or a value that is given the name. -/
def ShownAs (shown name : String) : Prop := shown = name ∨ ∃ value, shown = value ++ " AS " ++ name

namespace Setting

/-- The names under which a query shows a day, a bucket of the dimension, if one is shown, and a
user. -/
def shownNames (s : Setting) (shown : Option String) : List String :=
  s.config.dateColumn :: (shown.toList.map fun _ ↦ "dimension") ++ [s.config.connectorField]

/-- The texts of queries that show a dimension, or none. -/
inductive Written (s : Setting) (find : UserSet → Option DailyTable) (collection : String) :
    Option String → QueryText → Prop
  | events (shown condition : Option String) :
    s.Written find collection shown (s.eventsText collection shown condition)
  | table {t : DailyTable} (h : find ⟨collection, s.dimension⟩ = some t) :
    s.Written find collection s.dimension (s.tableText t.qualified)
  | joined (base : String) (joined : List String) (shown : Option String) (condition : String) :
    s.Written find collection shown (s.joinedText collection base joined
      (shown.map fun d ↦ (sourceName find collection d, d)) condition)
  | around {d : String} {t : DailyTable} {inner : QueryText} (hd : s.dimension = some d)
    (h : find ⟨collection, some d⟩ = some t) (hinner : s.Written find collection none inner) :
    s.Written find collection s.dimension (s.aroundText t.qualified d inner.text)

/-- What the query of a step shows and how it is grouped. -/
structure Exposes (s : Setting) (find : UserSet → Option DailyTable) (step : Step)
    (q : QueryText) : Prop where
  written : s.Written find step.collection s.dimension q
  columns : List.Forall₂ ShownAs q.shown (s.shownNames s.dimension)
  /-- A table that serves a step is not grouped, and everything else is. -/
  grouped : q.grouped = false ↔
    step.filter = none ∧ find ⟨step.collection, s.dimension⟩ ≠ none
  /-- The users that pass a filter, inside a join with the table of the dimension. -/
  inner : ∀ f d t, step.filter = some f → f.supported = true → s.dimension = some d →
    d ∉ f.references → find ⟨step.collection, some d⟩ = some t →
    ∃ inner, q = s.aroundText t.qualified d inner.text ∧
      s.Written find step.collection none inner ∧
      List.Forall₂ ShownAs inner.shown (s.shownNames none) ∧ inner.grouped = true

variable {s : Setting} {find : UserSet → Option DailyTable} {connector collection : String}
  {f : Filter} {step : Step}

/-! ## What the queries show -/

theorem shownAs_self (name : String) : ShownAs name name := .inl rfl

theorem shownAs_named (value name : String) : ShownAs (value ++ " AS " ++ name) name :=
  .inr ⟨value, rfl⟩

theorem shownAs_bucket (value : String) : ShownAs (value ++ " AS dimension") "dimension" := by
  refine .inr ⟨value, ?_⟩
  apply String.toList_injective
  simp

theorem shownAs_day (column name : String) :
    ShownAs ("cast(" ++ column ++ " as date) AS " ++ name) name := by
  refine .inr ⟨"cast(" ++ column ++ " as date)", ?_⟩
  apply String.toList_injective
  simp

/-- A day, a bucket if there is a dimension, and a user are shown in this order. -/
theorem forall₂_shownNames {day user : String} (hday : ShownAs day s.config.dateColumn)
    (shown : Option String) (bucket : String → String)
    (hbucket : ∀ d, ShownAs (bucket d) "dimension")
    (huser : ShownAs user s.config.connectorField) :
    List.Forall₂ ShownAs (day :: shown.toList.map bucket ++ [user]) (s.shownNames shown) := by
  cases shown with
  | none => exact .cons hday (.cons huser .nil)
  | some d => exact .cons hday (.cons (hbucket d) (.cons huser .nil))

/-- However a query is written, it shows a day, a bucket if there is a dimension, and a user. -/
theorem Written.columns {shown : Option String} {q : QueryText}
    (h : s.Written find collection shown q) :
    List.Forall₂ ShownAs q.shown (s.shownNames shown) := by
  cases h with
  | events condition =>
    exact forall₂_shownNames (shownAs_day _ _) shown _ shownAs_bucket (shownAs_self _)
  | table h =>
    exact forall₂_shownNames (shownAs_self _) s.dimension _ shownAs_bucket (shownAs_self _)
  | joined base joined condition =>
    cases shown with
    | none => exact .cons (shownAs_named _ _) (.cons (shownAs_named _ _) .nil)
    | some d =>
      exact .cons (shownAs_named _ _) (.cons (shownAs_bucket _) (.cons (shownAs_named _ _) .nil))
  | @around d t inner hd ht hinner =>
    rw [hd]
    exact .cons (shownAs_named _ _) (.cons (shownAs_bucket _) (.cons (shownAs_named _ _) .nil))

theorem written_filtered (h : FindsByName connector find) (f : Filter) (condition : String)
    (shown : Option String) :
    s.Written find collection shown (s.filtered find collection f condition shown).parts := by
  by_cases hcovered : coveringTables find collection f = []
  · rw [filtered_of_uncovered hcovered, parts_fromEvents]
    exact .events shown (some condition)
  · obtain ⟨base, joined, -, hparts⟩ := parts_filtered (s := s) h hcovered condition shown
    rw [hparts]
    exact .joined base joined shown condition

theorem grouped_filtered (f : Filter) (condition : String) (shown : Option String) :
    (s.filtered find collection f condition shown).parts.grouped = true := by
  unfold filtered
  cases coveringTables find collection f with
  | nil => rfl
  | cons first others => cases (uncoveredColumns find collection f).isEmpty <;> rfl

/-! ## Steps -/

theorem exposes_planUnfiltered (hfilter : step.filter = none) :
    s.Exposes find step (s.planUnfiltered find step.collection).body.parts := by
  have hinner : ∀ f, step.filter ≠ some f := by simp [hfilter]
  unfold planUnfiltered
  cases hfound : find ⟨step.collection, s.dimension⟩ with
  | none =>
    have hparts : (Body.simple (s.fromEvents step.collection s.dimension none)).parts =
        s.eventsText step.collection s.dimension none := parts_fromEvents _ _ _
    have hwritten : s.Written find step.collection s.dimension
        (s.eventsText step.collection s.dimension none) := .events s.dimension none
    simp only [hparts]
    refine ⟨hwritten, hwritten.columns, ?_, ?_⟩
    · simp [eventsText, hfound]
    · exact fun f d t hf ↦ absurd hf (hinner f)
  | some t =>
    have hparts : (Body.simple (s.fromTable t)).parts = s.tableText t.qualified :=
      parts_fromTable t
    simp only [hparts]
    refine ⟨.table hfound, (Written.table hfound).columns, ?_, ?_⟩
    · simp [tableText, hfound, hfilter]
    · exact fun f d t hf ↦ absurd hf (hinner f)

/-- A query that counts raw events for a filter is not inside a join. -/
theorem exposes_eventsText (hfilter : step.filter = some f) (condition : Option String)
    (hinner : f.supported = true → ∀ d t, s.dimension = some d → d ∉ f.references →
      find ⟨step.collection, some d⟩ ≠ some t) :
    s.Exposes find step (s.eventsText step.collection s.dimension condition) := by
  have hwritten : s.Written find step.collection s.dimension
      (s.eventsText step.collection s.dimension condition) := .events s.dimension condition
  refine ⟨hwritten, hwritten.columns, by simp [eventsText, hfilter], ?_⟩
  intro g d t hg hsupported hd hmentions ht
  obtain rfl := Option.some.inj (hfilter.symm.trans hg)
  exact absurd ht (hinner hsupported d t hd hmentions)

theorem exposes_planFiltered (h : FindsByName connector find) (hfilter : step.filter = some f) :
    s.Exposes find step (s.planFiltered find step.collection f).body.parts := by
  have hevents : (Body.simple (s.fromEvents step.collection s.dimension (some f.render))).parts =
      s.eventsText step.collection s.dimension (some f.render) := parts_fromEvents _ _ _
  cases hsupported : f.supported with
  | false =>
    rw [planFiltered_of_not_supported hsupported, hevents]
    exact exposes_eventsText hfilter _ (by simp [hsupported])
  | true =>
    rcases @body_planFiltered_cases s find step.collection f hsupported with
      ⟨hlacks, hbody⟩ | ⟨d, t, hd, -, ht, hbody⟩ | ⟨hall, hbody⟩
    · rw [hbody, hevents]
      refine exposes_eventsText hfilter _ fun _ d t hd _ ht ↦ ?_
      obtain ⟨d', hd', -, hnone⟩ := hlacks
      obtain rfl := Option.some.inj (hd.symm.trans hd')
      simp [ht] at hnone
    · set inner := s.filtered find step.collection f
        (f.readFrom (columnPrefix find step.collection f)).render none
      have hparts : (Body.outer (s.withDimension t d inner)).parts =
          s.aroundText t.qualified d inner.parts.text := by
        rw [Body.parts, parts_withDimension, Select.sql_eq_text_parts]
      have hinner : s.Written find step.collection none inner.parts := written_filtered h f _ none
      have hwritten : s.Written find step.collection s.dimension
          (s.aroundText t.qualified d inner.parts.text) := .around hd ht hinner
      rw [hbody, hparts]
      refine ⟨hwritten, hwritten.columns, by simp [aroundText, hfilter], ?_⟩
      intro g d' t' _ _ hd' _ ht'
      obtain rfl := Option.some.inj (hd.symm.trans hd')
      obtain rfl := Option.some.inj (ht.symm.trans ht')
      exact ⟨inner.parts, rfl, hinner, hinner.columns, grouped_filtered f _ none⟩
    · rw [hbody]
      refine ⟨written_filtered h f _ s.dimension, (written_filtered h f _ s.dimension).columns,
        ?_, ?_⟩
      · simp [Body.parts, grouped_filtered, hfilter]
      · intro g d t hg _ hd hmentions
        obtain rfl := Option.some.inj (hfilter.symm.trans hg)
        exact absurd (hall d hd) hmentions

theorem exposes_plan (h : FindsByName connector find) (step : Step) :
    s.Exposes find step (s.plan find step).body.parts := by
  unfold plan
  cases hfilter : step.filter with
  | none => exact exposes_planUnfiltered hfilter
  | some f => exact exposes_planFiltered h hfilter

end Setting

/-! ## All steps -/

/-- Every step shows its day, its bucket if there is a dimension, and its user, and is grouped by
them unless a table serves it without a filter.  The links and the counts name nothing but these
columns of the steps, and the bucket only if there is a dimension. -/
theorem forall_columns_shown {config : Config} {registry : Registry} {r : Request} {c : Compiled}
    (h : (compile config registry r).result = .ok c) :
    ∃ period, r.check config = .ok period ∧
      let s : Setting := ⟨config, period, r.dimension⟩
      let find := registry.table r.project config.connectorField
      ∃ queries, List.Forall₂ (s.Exposes find) r.steps queries ∧
        ∀ bucket, (r.dimension.isSome = true → bucket = "dimension") →
          c.sql = s.statementText config.dateColumn bucket config.connectorField
            (queries.map QueryText.text) := by
  obtain ⟨period, hcheck, hsql⟩ := sql_eq_statementText h
  refine ⟨period, hcheck, ?_⟩
  intro s find
  refine ⟨r.steps.map fun step ↦ (s.plan find step).body.parts, ?_, fun bucket hbucket ↦ ?_⟩
  · rw [List.forall₂_map_right_iff, List.forall₂_same]
    intro step _
    exact Setting.exposes_plan (Setting.findsByName_table registry r.project _) step
  · rw [hsql, Setting.statementText_congr fun hd ↦ (hbucket hd).symm, List.map_map]
    simp only [Function.comp_def, Body.sql_eq_text_parts]
    rfl

/-- The first step has its dimension from a table around the users of its filter, and another table
serves the second one. -/
theorem columns_of_joined_and_served :
    let tables : ProjectTables := ⟨["_users_daily_visit_by_country"],
      ["_users_daily_visit_by_device", "_users_daily_buy_by_device"]⟩
    let registry : Registry := .ofCatalog ⟨[("shop", tables)]⟩
    let filter : Filter := .binary .eq (.column (.plain "country")) (.value (.string "de"))
    let r : Request := ⟨"shop", [⟨"visit", some filter⟩, ⟨"buy", none⟩], some "device",
      ⟨2024, 2, 1, by decide⟩, ⟨2024, 2, 29, by decide⟩⟩
    ∃ c period, ∃ inner buy : QueryText, (compile .default registry r).result = .ok c ∧
      let s : Setting := ⟨.default, period, some "device"⟩
      let visit := s.aroundText "materialized._users_daily_visit_by_device" "device" inner.text
      c.sql = s.statementText "date" "dimension" "_user" [visit.text, buy.text] ∧
      List.Forall₂ ShownAs visit.shown ["date", "dimension", "_user"] ∧ visit.grouped = true ∧
      List.Forall₂ ShownAs inner.shown ["date", "_user"] ∧ inner.grouped = true ∧
      List.Forall₂ ShownAs buy.shown ["date", "dimension", "_user"] ∧ buy.grouped = false := by
  intro tables registry filter r
  have hcheck : Request.check .default r =
      .ok ⟨⟨2024, 2, 1, by decide⟩, ⟨2024, 3, 1, by decide⟩⟩ := by decide
  have hdevice : registry.table "shop" "_user" ⟨"visit", some "device"⟩ =
      some ⟨.materialized, "_users_daily_visit_by_device"⟩ := by decide +kernel
  have hserved : registry.table "shop" "_user" ⟨"buy", some "device"⟩ ≠ none := by decide +kernel
  have hc := compile_of_check registry hcheck
  obtain ⟨period, -, queries, hsteps, hsql⟩ := forall_columns_shown hc
  obtain ⟨visit, rest, hvisit, hrest, rfl⟩ := List.forall₂_cons_left_iff.1 hsteps
  obtain ⟨buy, rest', hbuy, hrest', rfl⟩ := List.forall₂_cons_left_iff.1 hrest
  obtain rfl := List.forall₂_nil_left_iff.1 hrest'
  obtain ⟨inner, rfl, -, hinner, hgrouped⟩ := hvisit.inner filter "device" _ rfl (by decide) rfl
    (by decide) hdevice
  exact ⟨_, period, inner, buy, hc, hsql "dimension" fun _ ↦ rfl, hvisit.columns, rfl, hinner,
    hgrouped, hbuy.columns, hbuy.grouped.2 ⟨rfl, hserved⟩⟩

end Funnel
