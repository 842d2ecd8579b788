import Funnel.Proofs.QueryTexts
import Funnel.Proofs.Unresolved

/-!
# The Conditions of the Steps

Which rows the query of a step keeps.  Every query restricts its base to the period of the request,
and so does the query of the users inside it, if there is one.  A filter adds one condition, in one
of the two places, and nothing else does (`forall_steps_keep`).  The condition is the text of the
filter with its columns behind the tables that they are read from, or the plain text of the filter
where it is applied to raw events alone.
-/

namespace Funnel

/-! ## Names of tables -/

/-- Different tables have different names as items. -/
theorem DailyTable.qualified_injective : Function.Injective DailyTable.qualified := by
  rintro ⟨schema, name⟩ ⟨schema', name'⟩ h
  have hlist := congrArg String.toList h
  cases schema <;> cases schema' <;>
    simp [DailyTable.qualified, Schema.name, String.toList_inj] at hlist
  · rw [hlist]
  · rw [hlist]

namespace UserSet

/-- A collection has one table for each column. -/
theorem tableName_injective (connector collection : String) :
    Function.Injective fun x ↦ tableName connector ⟨collection, some x⟩ := by
  intro x y h
  have hlist := congrArg String.toList h
  simpa [tableName, String.toList_inj] using hlist

end UserSet

namespace Setting

variable {s : Setting} {find : UserSet → Option DailyTable} {connector collection : String}
  {f : Filter}

/-- Tables are found by their names. -/
def FindsByName (connector : String) (find : UserSet → Option DailyTable) : Prop :=
  ∀ set t, find set = some t → t.name = set.tableName connector

theorem findsByName_table (registry : Registry) (project connector : String) :
    FindsByName connector (registry.table project connector) := by
  intro set t h
  dsimp only [Registry.table] at h
  split at h
  · exact Option.some.inj h ▸ rfl
  · split at h
    · exact Option.some.inj h ▸ rfl
    · cases h

/-- A table is not named like its collection: its name is longer. -/
theorem FindsByName.qualified_ne (h : FindsByName connector find) {column : Option String}
    {t : DailyTable} (ht : find ⟨collection, column⟩ = some t) : t.qualified ≠ collection := by
  intro heq
  have hlength := congrArg String.length heq
  have hdot : ".".length = 1 := rfl
  rw [DailyTable.qualified, h _ t ht, UserSet.tableName] at hlength
  cases column <;> simp only [String.length_append] at hlength <;> omega

end Setting

/-! ## The condition of a filter -/

section Condition

variable (dimension : Option String) (find : UserSet → Option DailyTable) (collection : String)
  (f : Filter)

/-- What stands in front of a column of a filter: the name of its table; without a table the name
of the collection, if some other column has a table, and otherwise nothing. -/
def columnPrefix (x : String) : Option String :=
  match find ⟨collection, some x⟩ with
  | some t => some t.qualified
  | none => if ∃ y ∈ f.references, find ⟨collection, some y⟩ ≠ none then some collection else none

/-- There is a dimension that the filter does not mention, and no table has it. -/
def LacksDimension : Prop :=
  ∃ d, dimension = some d ∧ d ∉ f.references ∧ find ⟨collection, some d⟩ = none

/-- What a dimension is read from: the table of the dimension if there is one. -/
def sourceName (d : String) : String :=
  match find ⟨collection, some d⟩ with
  | some t => t.qualified
  | none => collection

variable (s : Setting)

/-- The query restricts the rows that it reads to the period and to the conditions, and to nothing
else.  What it reads is a base, which is the raw events or a table of the collection, and tables
that are joined to the base.  The period restricts a column of the base, the time of an event or the
day of a row of a table; its name stands alone only if no other table is read. -/
def Restricts (conditions : List String) (q : QueryText) : Prop :=
  ∃ base joined column, q.source = s.joinedSource collection base joined ∧
    (base = collection ∨ ∃ x t, find ⟨collection, x⟩ = some t ∧ base = t.qualified) ∧
    (column = base ++ "." ++ s.momentName collection base ∨
      joined = [] ∧ column = s.momentName collection base) ∧
    q.kept = rangeText s.period column :: conditions.map fun c ↦ "(" ++ c ++ ")"

/-- The query of a step restricts what it reads, or it is the text around such a query, which
restricts the table of the dimension to the period as well. -/
def RestrictsStep (conditions : List String) (query : String) : Prop :=
  ∃ q, Restricts find collection s conditions q ∧
    (query = q.text ∨ ∃ d t, s.dimension = some d ∧ find ⟨collection, some d⟩ = some t ∧
      query = (s.aroundText t.qualified d q.text).text)

/-- The query applies a filter.  An unsupported filter, and one that lacks a dimension, is applied
as it stands to raw events; any other one has its columns behind the tables that hold them. -/
structure Applies (query : String) : Prop where
  raw : (f.supported = false ∨ LacksDimension s.dimension find collection f) →
    query = (s.eventsText collection s.dimension (some f.render)).text
  rewritten : f.supported = true → ¬ LacksDimension s.dimension find collection f →
    RestrictsStep find collection s [(f.readFrom (columnPrefix find collection f)).render] query

end Condition

namespace Setting

variable {s : Setting} {find : UserSet → Option DailyTable} {collection : String} {f : Filter}

/-- The planned source of a column has the name that stands in front of the column. -/
theorem map_name_columnSource (x : String) :
    (columnSource find collection f x).map Source.name = columnPrefix find collection f x := by
  unfold columnSource columnPrefix
  change Option.map _ (match find ⟨collection, some x⟩ with | some t => _ | none => _) = _
  cases find ⟨collection, some x⟩ with
  | some t => rfl
  | none =>
    by_cases hcovered : ∃ y ∈ f.references, find ⟨collection, some y⟩ ≠ none
    · have hne : coveringTables find collection f ≠ [] := by
        rw [Ne, coveringTables_eq_nil_iff]
        push Not
        exact hcovered
      simp [hcovered, hne, Source.name]
    · have heq : coveringTables find collection f = [] := by
        rw [coveringTables_eq_nil_iff]
        push Not at hcovered
        exact hcovered
      simp [hcovered, heq]

/-- A supported filter is rewritten to its text with every column behind its prefix. -/
theorem rewriteWith_columnSource (h : f.supported = true) :
    (f.rewriteWith fun x ↦ (columnSource find collection f x).map Source.name) =
      .ok (f.readFrom (columnPrefix find collection f)).render := by
  rw [Filter.rewriteWith_eq_render _ h]
  congr 3
  funext x
  exact map_name_columnSource x

/-- The body of a plan is built in one of three ways: around the dimension's table or the raw
events if the filter does not mention a dimension, and as it stands otherwise. -/
theorem body_planFiltered_cases (h : f.supported = true) :
    let inner := s.filtered find collection f (f.readFrom (columnPrefix find collection f)).render
    (LacksDimension s.dimension find collection f ∧
        (s.planFiltered find collection f).body =
          .simple (s.fromEvents collection s.dimension (some f.render))) ∨
      (∃ d t, s.dimension = some d ∧ d ∉ f.references ∧ find ⟨collection, some d⟩ = some t ∧
        (s.planFiltered find collection f).body = .outer (s.withDimension t d (inner none))) ∨
      (∀ d, s.dimension = some d → d ∈ f.references) ∧
        (s.planFiltered find collection f).body = .simple (inner s.dimension) := by
  intro inner
  simp only [planFiltered, rewriteWith_columnSource h]
  cases hd : s.dimension with
  | none => exact .inr (.inr ⟨by simp, rfl⟩)
  | some d =>
    cases hmentions : f.mentions d with
    | true =>
      refine .inr (.inr ⟨fun d' hd' ↦ ?_, by simp [hmentions, inner]⟩)
      exact Option.some.inj hd' ▸ Filter.mentions_iff.1 hmentions
    | false =>
      have hd' : d ∉ f.references := by simpa [Filter.mentions] using hmentions
      cases htable : find ⟨collection, some d⟩ with
      | none => exact .inl ⟨⟨d, rfl, hd', htable⟩, by simp [hmentions, columnTable, htable]⟩
      | some t =>
        exact .inr (.inl ⟨d, t, rfl, hd', htable, by simp [hmentions, columnTable, htable, inner]⟩)

/-! ## The text of a filter over tables -/

theorem dayText_collection (collection : String) : s.dayText collection collection =
    "cast(" ++ collection ++ "." ++ s.config.timeColumn ++ " as date)" := if_pos rfl

theorem dayText_of_ne {item : String} (h : item ≠ collection) :
    s.dayText collection item = item ++ "." ++ s.config.dateColumn := if_neg h

theorem momentName_collection (collection : String) :
    s.momentName collection collection = s.config.timeColumn := if_pos rfl

theorem momentName_of_ne {item : String} (h : item ≠ collection) :
    s.momentName collection item = s.config.dateColumn := if_neg h

theorem name_bucketSource (d : String) :
    (bucketSource find collection d).name = sourceName find collection d := by
  unfold bucketSource sourceName columnTable
  cases find ⟨collection, some d⟩ <;> rfl

variable (find collection f) in
/-- What the query of a filter reads: the raw events if some column has no table, and the tables. -/
def itemNames : List String :=
  (if (uncoveredColumns find collection f).isEmpty then [] else [collection]) ++
    (coveringTables find collection f).map DailyTable.qualified

theorem mem_coveringTables {t : DailyTable} :
    t ∈ coveringTables find collection f ↔
      ∃ x ∈ f.references, find ⟨collection, some x⟩ = some t := by
  simp [coveringTables, columnTable, Filter.mem_columns]

theorem filtered_of_uncovered (h : coveringTables find collection f = []) (condition : String)
    (shown : Option String) : s.filtered find collection f condition shown =
      s.fromEvents collection shown (some condition) := by
  unfold filtered
  rw [h]

/-- The query of a filter with a table joins what it reads to the first of it. -/
theorem parts_filtered (h : FindsByName connector find)
    (hcovered : coveringTables find collection f ≠ []) (condition : String)
    (shown : Option String) :
    ∃ base joined, base :: joined = itemNames find collection f ∧
      (s.filtered find collection f condition shown).parts =
        s.joinedText collection base joined (shown.map fun d ↦ (sourceName find collection d, d))
          condition := by
  have hbucket : (shown.map fun d ↦ ((bucketSource find collection d).name, d)) =
      shown.map fun d ↦ (sourceName find collection d, d) := by
    simp only [name_bucketSource]
  rw [← hbucket]
  unfold filtered itemNames
  cases hcovering : coveringTables find collection f with
  | nil => exact absurd hcovering hcovered
  | cons first others =>
    cases (uncoveredColumns find collection f).isEmpty with
    | true =>
      obtain ⟨x, -, hx⟩ := mem_coveringTables.1 (hcovering ▸ List.mem_cons_self)
      have hne := h.qualified_ne hx
      have hday : (Scalar.column (some (Source.table first)) s.config.dateColumn).sql =
          s.dayText collection (Source.table first).name := (dayText_of_ne hne).symm
      have hmoment : (Scalar.column (some (Source.table first)) s.config.dateColumn).sql =
          (Source.table first).name ++ "." ++ s.momentName collection (Source.table first).name :=
        congrArg (first.qualified ++ "." ++ ·) (momentName_of_ne hne).symm
      exact ⟨first.qualified, others.map DailyTable.qualified, rfl,
        parts_fromJoined hday hmoment others shown _ condition⟩
    | false =>
      have hday : (Scalar.day (some (Source.events collection)) s.config.timeColumn).sql =
          s.dayText collection (Source.events collection).name :=
        (dayText_collection collection).symm
      have hmoment : (Scalar.column (some (Source.events collection)) s.config.timeColumn).sql =
          (Source.events collection).name ++ "." ++
            s.momentName collection (Source.events collection).name :=
        congrArg (collection ++ "." ++ ·) (momentName_collection collection).symm
      exact ⟨collection, (first :: others).map DailyTable.qualified, rfl,
        parts_fromJoined hday hmoment (first :: others) shown _ condition⟩

/-! ## What the queries keep -/

theorem restricts_eventsText (bucket condition : Option String) :
    Restricts find collection s condition.toList (s.eventsText collection bucket condition) := by
  exact ⟨collection, [], s.config.timeColumn, String.append_empty.symm, .inl rfl,
    .inr ⟨rfl, (momentName_collection collection).symm⟩, rfl⟩

theorem restricts_tableText (h : FindsByName connector find) {x : Option String} {t : DailyTable}
    (ht : find ⟨collection, x⟩ = some t) :
    Restricts find collection s [] (s.tableText t.qualified) := by
  have hmoment := momentName_of_ne (s := s) (h.qualified_ne ht)
  exact ⟨t.qualified, [], s.config.dateColumn, String.append_empty.symm, .inr ⟨x, t, ht, rfl⟩,
    .inr ⟨rfl, hmoment.symm⟩, rfl⟩

theorem mem_itemNames {name : String} (h : name ∈ itemNames find collection f) :
    name = collection ∨
      ∃ x ∈ f.references, ∃ t, find ⟨collection, some x⟩ = some t ∧ name = t.qualified := by
  rcases List.mem_append.1 h with h | h
  · split at h
    · cases h
    · exact .inl (List.mem_singleton.1 h)
  · obtain ⟨t, ht, rfl⟩ := List.mem_map.1 h
    obtain ⟨x, hx, hfound⟩ := mem_coveringTables.1 ht
    exact .inr ⟨x, hx, t, hfound, rfl⟩

theorem restricts_filtered (h : FindsByName connector find) (f : Filter) (condition : String)
    (shown : Option String) :
    Restricts find collection s [condition]
      (s.filtered find collection f condition shown).parts := by
  by_cases hcovered : coveringTables find collection f = []
  · rw [filtered_of_uncovered hcovered, parts_fromEvents]
    exact restricts_eventsText shown (some condition)
  · obtain ⟨base, joined, hnames, hparts⟩ := parts_filtered (s := s) h hcovered condition shown
    rw [hparts]
    refine ⟨base, joined, _, rfl, ?_, .inl rfl, rfl⟩
    have hbase : base ∈ itemNames find collection f := hnames ▸ List.mem_cons_self
    exact (mem_itemNames hbase).imp_right fun ⟨x, _, t, ht, heq⟩ ↦ ⟨some x, t, ht, heq⟩

theorem restrictsStep_planUnfiltered (h : FindsByName connector find) :
    RestrictsStep find collection s [] (s.planUnfiltered find collection).body.sql := by
  unfold planUnfiltered
  cases hfound : find ⟨collection, s.dimension⟩ with
  | none =>
    refine ⟨_, restricts_eventsText s.dimension none, .inl ?_⟩
    rw [Body.sql, Select.sql_eq_text_parts, parts_fromEvents]
  | some t =>
    refine ⟨_, restricts_tableText h hfound, .inl ?_⟩
    rw [Body.sql, Select.sql_eq_text_parts, parts_fromTable]

/-- An unsupported filter, and one that lacks a dimension, is applied to raw events. -/
theorem body_planFiltered_of_raw
    (h : f.supported = false ∨ LacksDimension s.dimension find collection f) :
    (s.planFiltered find collection f).body =
      .simple (s.fromEvents collection s.dimension (some f.render)) := by
  cases hsupported : f.supported with
  | false => rw [planFiltered_of_not_supported hsupported]
  | true =>
    obtain ⟨d, hd, hmentions, hnone⟩ := h.resolve_left (by simp [hsupported])
    rcases body_planFiltered_cases hsupported with
      ⟨-, hbody⟩ | ⟨d', t, hd', -, htable, -⟩ | ⟨hall, -⟩
    · exact hbody
    · simp [← Option.some.inj (hd.symm.trans hd'), hnone] at htable
    · exact absurd (hall d hd) hmentions

theorem applies_planFiltered (h : FindsByName connector find) :
    Applies find collection f s (s.planFiltered find collection f).body.sql where
  raw := by
    intro hraw
    rw [body_planFiltered_of_raw hraw, Body.sql, Select.sql_eq_text_parts, parts_fromEvents]
  rewritten := by
    intro hsupported hdim
    rcases body_planFiltered_cases hsupported with
      ⟨hlacks, -⟩ | ⟨d, t, hd, -, ht, hbody⟩ | ⟨-, hbody⟩
    · exact absurd hlacks hdim
    · refine ⟨_, restricts_filtered h f _ none, .inr ⟨d, t, hd, ht, ?_⟩⟩
      rw [hbody, Body.sql, Select.sql_eq_text_parts, parts_withDimension, Select.sql_eq_text_parts]
    · refine ⟨_, restricts_filtered h f _ s.dimension, .inl ?_⟩
      rw [hbody, Body.sql, Select.sql_eq_text_parts]

end Setting

/-! ## All steps -/

/-- A request is accepted if neither the configuration nor the request has a fault and there is a
period from its start to its end. -/
theorem Request.check_eq_ok_iff {config : Config} {r : Request} {period : Period} :
    r.check config = .ok period ↔ config.fault? = none ∧ r.fault? config = none ∧
      Period.ofDays? r.startDate r.endDate = some period := by
  unfold Request.check
  cases config.fault? <;> cases r.fault? config <;>
    cases Period.ofDays? r.startDate r.endDate <;> simp

/-- The period of an accepted request has the days from its start to its end. -/
theorem Request.ofDays?_of_check {config : Config} {r : Request} {period : Period}
    (h : r.check config = .ok period) : Period.ofDays? r.startDate r.endDate = some period :=
  (Request.check_eq_ok_iff.1 h).2.2

/-- The statement of an accepted request is put together from one body for each step, the one that
was planned for it. -/
theorem exists_bodies {config : Config} {registry : Registry} {r : Request} {c : Compiled}
    (h : (compile config registry r).result = .ok c) :
    ∃ period, r.check config = .ok period ∧
      let s : Setting := ⟨config, period, r.dimension⟩
      let find := registry.table r.project config.connectorField
      ∃ bodies, c.sql = s.statementSql bodies ∧
        List.Forall₂ (fun step body ↦ body = (s.plan find step).body) r.steps bodies := by
  obtain ⟨period, hcheck, rfl⟩ := compile_eq_ok_iff.1 h
  refine ⟨period, hcheck, ?_⟩
  intro s find
  refine ⟨(s.plans find r.steps).map StepPlan.body, rfl, ?_⟩
  rw [Setting.plans, List.map_map, List.forall₂_map_right_iff, List.forall₂_same]
  intro step _
  rfl

/-- The statement of an accepted request is the text over the queries that were planned. -/
theorem sql_eq_statementText {config : Config} {registry : Registry} {r : Request} {c : Compiled}
    (h : (compile config registry r).result = .ok c) :
    ∃ period, r.check config = .ok period ∧
      let s : Setting := ⟨config, period, r.dimension⟩
      let find := registry.table r.project config.connectorField
      c.sql = s.statementText config.dateColumn "dimension" config.connectorField
        (r.steps.map fun step ↦ (s.plan find step).body.sql) := by
  obtain ⟨period, hcheck, rfl⟩ := compile_eq_ok_iff.1 h
  refine ⟨period, hcheck, ?_⟩
  intro s find
  have hsql : (s.compiled find r.steps).sql =
      s.statementSql (r.steps.map fun step ↦ (s.plan find step).body) := by
    rw [Setting.compiled, Setting.plans, List.map_map]
    rfl
  rw [hsql, Setting.statementSql_eq_statementText, List.map_map]
  rfl

/-- The query of every step is restricted to the days of the request and to the condition of its
filter, if it has one, and to nothing else. -/
theorem forall_steps_keep {config : Config} {registry : Registry} {r : Request} {c : Compiled}
    (h : (compile config registry r).result = .ok c) :
    ∃ period, Period.ofDays? r.startDate r.endDate = some period ∧
      let s : Setting := ⟨config, period, r.dimension⟩
      let find := registry.table r.project config.connectorField
      ∃ queries,
        c.sql = s.statementText config.dateColumn "dimension" config.connectorField queries ∧
        List.Forall₂ (fun step query ↦
          (step.filter = none → RestrictsStep find step.collection s [] query) ∧
          ∀ f, step.filter = some f → Applies find step.collection f s query) r.steps queries := by
  obtain ⟨period, hcheck, hsql⟩ := sql_eq_statementText h
  refine ⟨period, Request.ofDays?_of_check hcheck, _, hsql, ?_⟩
  rw [List.forall₂_map_right_iff, List.forall₂_same]
  intro step _
  have hfind := Setting.findsByName_table registry r.project config.connectorField
  rw [Setting.plan]
  cases step.filter with
  | none => exact ⟨fun _ ↦ Setting.restrictsStep_planUnfiltered hfind, by simp⟩
  | some f =>
    refine ⟨by simp, fun g hg ↦ ?_⟩
    obtain rfl := Option.some.inj hg
    exact Setting.applies_planFiltered hfind

/-- One column of a filter is read from its continuous table and the other from raw events, inside
a join with the table of the dimension. -/
theorem keeps_of_half_covered_filter :
    let tables : ProjectTables := ⟨["_users_daily_visit_by_country"],
      ["_users_daily_visit_by_device", "_users_daily_visit_by_country"]⟩
    let registry : Registry := .ofCatalog ⟨[("shop", tables)]⟩
    let filter : Filter := .logical .and
      (.binary .eq (.column (.plain "country")) (.value (.string "de")))
      (.binary .gt (.column (.plain "age")) (.value (.number "18")))
    let r : Request := ⟨"shop", [⟨"visit", some filter⟩, ⟨"buy", none⟩], some "device",
      ⟨2024, 2, 1, by decide⟩, ⟨2024, 2, 29, by decide⟩⟩
    ∃ c period visit buy, (compile .default registry r).result = .ok c ∧
      period.afterLast = ⟨2024, 3, 1, by decide⟩ ∧
      let s : Setting := ⟨.default, period, some "device"⟩
      let find := registry.table "shop" "_user"
      c.sql = s.statementText "date" "dimension" "_user" [visit, buy] ∧
      RestrictsStep find "visit" s
        ["continuous._users_daily_visit_by_country.country = 'de' AND visit.age > 18"] visit ∧
      RestrictsStep find "buy" s [] buy := by
  intro tables registry filter r
  have hcheck : Request.check .default r =
      .ok ⟨⟨2024, 2, 1, by decide⟩, ⟨2024, 3, 1, by decide⟩⟩ := by decide
  have htext : (filter.readFrom
        (columnPrefix (registry.table "shop" "_user") "visit" filter)).render =
      "continuous._users_daily_visit_by_country.country = 'de' AND visit.age > 18" := by
    decide +kernel
  have hdevice : registry.table "shop" "_user" ⟨"visit", some "device"⟩ ≠ none := by decide +kernel
  have hc := compile_of_check registry hcheck
  obtain ⟨period, hperiod, queries, hsql, hsteps⟩ := forall_steps_keep hc
  obtain ⟨visit, rest, ⟨-, hvisit⟩, hrest, rfl⟩ := List.forall₂_cons_left_iff.1 hsteps
  obtain ⟨buy, rest', ⟨hbuy, -⟩, hrest', rfl⟩ := List.forall₂_cons_left_iff.1 hrest
  obtain rfl := List.forall₂_nil_left_iff.1 hrest'
  refine ⟨_, period, visit, buy, hc, ?_, hsql, ?_, hbuy rfl⟩
  · obtain rfl := Option.some.inj hperiod
    rfl
  · rw [← htext]
    refine (hvisit filter rfl).rewritten (by decide) ?_
    rintro ⟨d, hd, -, hnone⟩
    obtain rfl := Option.some.inj hd
    exact absurd hnone hdevice

end Funnel
