import Funnel.Proofs.Conditions
import Mathlib

/-!
# The Names in a Query

Where the columns of a filter come from.  The items of a query and the names in front of its columns
are chosen apart from each other: the items from the tables that were found for the columns of the
filter, the names column by column.  They agree (`scoped_filtered`): every name that stands in front
of a column is the name of one of the items, and of one only.  Each table stands among the items
once, and the raw events do, as the base, exactly if some column has no table.
-/

namespace Funnel

/-- The names in a query that reads `base` and the tables that are joined to it.  Its text has no
names in front of columns but these, the source of the dimension that it shows, and the prefixes in
the condition. -/
structure Scoped (find : UserSet → Option DailyTable) (collection : String) (f : Filter)
    (shown : Option String) (base : String) (joined : List String) : Prop where
  /-- A name belongs to one item. -/
  distinct : (base :: joined).Nodup
  prefixes : ∀ x ∈ f.references, ∃ name ∈ base :: joined,
    columnPrefix find collection f x = some name
  source : ∀ d, shown = some d → sourceName find collection d ∈ base :: joined
  tables : ∀ x ∈ f.references, ∀ t, find ⟨collection, some x⟩ = some t →
    (base :: joined).count t.qualified = 1
  events : collection ∈ base :: joined ↔ ∃ x ∈ f.references, find ⟨collection, some x⟩ = none
  first : collection ∈ base :: joined → base = collection
  /-- There are no other items. -/
  others : ∀ name ∈ base :: joined, name = collection ∨
    ∃ x ∈ f.references, ∃ t, find ⟨collection, some x⟩ = some t ∧ name = t.qualified

/-- The text of a query that applies a filter to its tables and shows a dimension. -/
def scopedText (s : Setting) (find : UserSet → Option DailyTable) (collection : String)
    (f : Filter) (shown : Option String) (base : String) (joined : List String) : String :=
  (s.joinedText collection base joined (shown.map fun d ↦ (sourceName find collection d, d))
    (f.readFrom (columnPrefix find collection f)).render).text

/-- The query applies a filter to tables: the dimension is shown by the query itself if the filter
mentions it, and by the table of the dimension around the query if not. -/
def Scopes (s : Setting) (find : UserSet → Option DailyTable) (collection : String) (f : Filter)
    (query : String) : Prop :=
  ∃ base joined,
    (∀ d, s.dimension = some d → d ∈ f.references) ∧
        Scoped find collection f s.dimension base joined ∧
        query = scopedText s find collection f s.dimension base joined ∨
      ∃ d t, s.dimension = some d ∧ d ∉ f.references ∧ find ⟨collection, some d⟩ = some t ∧
        Scoped find collection f none base joined ∧
        query =
          (s.aroundText t.qualified d (scopedText s find collection f none base joined)).text

namespace Setting

variable {s : Setting} {find : UserSet → Option DailyTable} {connector collection : String}
  {f : Filter}

/-! ## Items -/

/-- No table is found for two columns. -/
theorem FindsByName.nodup_coveringTables (h : FindsByName connector find) :
    (coveringTables find collection f).Nodup := by
  refine List.Nodup.filterMap (fun x y t hx hy ↦ ?_) f.nodup_columns
  apply UserSet.tableName_injective connector collection
  exact (h _ t hx).symm.trans (h _ t hy)

theorem FindsByName.collection_notMem (h : FindsByName connector find) :
    collection ∉ (coveringTables find collection f).map DailyTable.qualified := by
  intro hmem
  obtain ⟨t, ht, hname⟩ := List.mem_map.1 hmem
  obtain ⟨x, -, hx⟩ := mem_coveringTables.1 ht
  exact h.qualified_ne hx hname

theorem FindsByName.nodup_itemNames (h : FindsByName connector find) :
    (itemNames find collection f).Nodup := by
  have htables : ((coveringTables find collection f).map DailyTable.qualified).Nodup :=
    h.nodup_coveringTables.map DailyTable.qualified_injective
  unfold itemNames
  cases (uncoveredColumns find collection f).isEmpty with
  | true => exact htables
  | false => exact List.nodup_cons.2 ⟨h.collection_notMem, htables⟩

theorem FindsByName.collection_mem_itemNames_iff (h : FindsByName connector find) :
    collection ∈ itemNames find collection f ↔
      ∃ x ∈ f.references, find ⟨collection, some x⟩ = none := by
  have huncovered : (∃ x ∈ f.references, find ⟨collection, some x⟩ = none) ↔
      uncoveredColumns find collection f ≠ [] := by
    rw [Ne, uncoveredColumns_eq_nil_iff]
    push Not
    rfl
  rw [itemNames, List.mem_append, or_iff_left h.collection_notMem, huncovered]
  cases uncoveredColumns find collection f <;> simp

/-- The raw events are the first item if they are one at all. -/
theorem FindsByName.head_eq_of_mem (h : FindsByName connector find) {base : String}
    {joined : List String} (hnames : base :: joined = itemNames find collection f)
    (hmem : collection ∈ base :: joined) : base = collection := by
  unfold itemNames at hnames
  cases huncovered : (uncoveredColumns find collection f).isEmpty with
  | true =>
    rw [huncovered, if_pos rfl, List.nil_append] at hnames
    exact absurd (hnames ▸ hmem) h.collection_notMem
  | false =>
    rw [huncovered] at hnames
    exact (List.cons.inj hnames).1

theorem table_mem_itemNames {x : String} (hx : x ∈ f.references) {t : DailyTable}
    (ht : find ⟨collection, some x⟩ = some t) : t.qualified ∈ itemNames find collection f :=
  List.mem_append_right _ (List.mem_map_of_mem (mem_coveringTables.2 ⟨x, hx, ht⟩))

/-- The source of a column that the filter mentions is an item. -/
theorem FindsByName.sourceName_mem (h : FindsByName connector find) {x : String}
    (hx : x ∈ f.references) : sourceName find collection x ∈ itemNames find collection f := by
  unfold sourceName
  cases htable : find ⟨collection, some x⟩ with
  | some t => exact table_mem_itemNames hx htable
  | none => exact h.collection_mem_itemNames_iff.2 ⟨x, hx, htable⟩

/-- If some column has a table, the name of its source stands in front of every column. -/
theorem columnPrefix_eq_sourceName
    (hcovered : ∃ x ∈ f.references, find ⟨collection, some x⟩ ≠ none) (x : String) :
    columnPrefix find collection f x = some (sourceName find collection x) := by
  unfold columnPrefix sourceName
  cases find ⟨collection, some x⟩ with
  | some t => rfl
  | none => exact if_pos hcovered

/-! ## The query of a filter -/

theorem scoped_filtered (h : FindsByName connector find)
    (hcovered : ∃ x ∈ f.references, find ⟨collection, some x⟩ ≠ none) {shown : Option String}
    (hshown : ∀ d, shown = some d → d ∈ f.references) :
    ∃ base joined, Scoped find collection f shown base joined ∧
      (s.filtered find collection f (f.readFrom (columnPrefix find collection f)).render
          shown).sql =
        scopedText s find collection f shown base joined := by
  have hne : coveringTables find collection f ≠ [] := by
    rw [Ne, coveringTables_eq_nil_iff]
    push Not
    exact hcovered
  obtain ⟨base, joined, hnames, hparts⟩ := parts_filtered (s := s) h hne
    (f.readFrom (columnPrefix find collection f)).render shown
  have hitems : (base :: joined).Nodup := hnames ▸ h.nodup_itemNames
  refine ⟨base, joined, ⟨hitems, ?_, ?_, ?_, ?_, ?_, ?_⟩, ?_⟩
  · intro x hx
    exact ⟨_, hnames ▸ h.sourceName_mem hx, columnPrefix_eq_sourceName hcovered x⟩
  · intro d hd
    exact hnames ▸ h.sourceName_mem (hshown d hd)
  · intro x hx t ht
    exact List.count_eq_one_of_mem hitems (hnames ▸ table_mem_itemNames hx ht)
  · rw [hnames]
    exact h.collection_mem_itemNames_iff
  · exact h.head_eq_of_mem hnames
  · intro name hname
    exact mem_itemNames (hnames ▸ hname)
  · rw [Select.sql_eq_text_parts, hparts, scopedText]

theorem scopes_planFiltered (h : FindsByName connector find) (hsupported : f.supported = true)
    (hcovered : ∃ x ∈ f.references, find ⟨collection, some x⟩ ≠ none)
    (hdim : ¬ LacksDimension s.dimension find collection f) :
    Scopes s find collection f (s.planFiltered find collection f).body.sql := by
  rcases body_planFiltered_cases (s := s) hsupported with
    ⟨hlacks, -⟩ | ⟨d, t, hd, hmentions, htable, hbody⟩ | ⟨hall, hbody⟩
  · exact absurd hlacks hdim
  · have hnone : ∀ d', none = some d' → d' ∈ f.references := by simp
    obtain ⟨base, joined, hscoped, hsql⟩ := scoped_filtered (s := s) h hcovered hnone
    refine ⟨base, joined, .inr ⟨d, t, hd, hmentions, htable, hscoped, ?_⟩⟩
    rw [hbody, Body.sql, Select.sql_eq_text_parts, parts_withDimension, hsql]
  · obtain ⟨base, joined, hscoped, hsql⟩ := scoped_filtered (s := s) h hcovered hall
    refine ⟨base, joined, .inl ⟨hall, hscoped, ?_⟩⟩
    rw [hbody, Body.sql, hsql]

end Setting

/-! ## All steps -/

/-- The query of every step with a supported filter, some column of which has a table, takes each
name from its own items, unless the step lacks its dimension and reads raw events alone. -/
theorem forall_steps_scoped {config : Config} {registry : Registry} {r : Request} {c : Compiled}
    (h : (compile config registry r).result = .ok c) :
    ∃ period, r.check config = .ok period ∧
      let s : Setting := ⟨config, period, r.dimension⟩
      let find := registry.table r.project config.connectorField
      ∃ queries,
        c.sql = s.statementText config.dateColumn "dimension" config.connectorField queries ∧
        List.Forall₂ (fun step query ↦ ∀ f, step.filter = some f → f.supported = true →
          (∃ x ∈ f.references, find ⟨step.collection, some x⟩ ≠ none) →
          ¬ LacksDimension r.dimension find step.collection f →
          Scopes s find step.collection f query) r.steps queries := by
  obtain ⟨period, hcheck, hsql⟩ := sql_eq_statementText h
  refine ⟨period, hcheck, _, hsql, ?_⟩
  rw [List.forall₂_map_right_iff, List.forall₂_same]
  intro step _ f hfilter hsupported hcovered hdim
  rw [Setting.plan, hfilter]
  exact Setting.scopes_planFiltered (Setting.findsByName_table registry r.project _) hsupported
    hcovered hdim

/-- A step by a dimension that its filter mentions: one column has a table and the dimension has
none, so the table is joined to raw events and they show the dimension. -/
theorem scoped_of_uncovered_dimension :
    let t : DailyTable := ⟨.materialized, "_users_daily_visit_by_country"⟩
    let registry : Registry := .ofCatalog ⟨[("shop", ⟨[], [t.name]⟩)]⟩
    let filter : Filter := .logical .and
      (.binary .eq (.column (.plain "country")) (.value (.string "de")))
      (.binary .gt (.column (.plain "age")) (.value (.number "18")))
    let r : Request := ⟨"shop", [⟨"visit", some filter⟩], some "age",
      ⟨2024, 2, 1, by decide⟩, ⟨2024, 2, 29, by decide⟩⟩
    ∃ c period joined, (compile .default registry r).result = .ok c ∧
      let s : Setting := ⟨.default, period, some "age"⟩
      c.sql = s.statementText "date" "dimension" "_user" [(s.joinedText "visit" "visit" joined
        (some ("visit", "age"))
        (t.qualified ++ ".country = 'de' AND visit.age > 18")).text] ∧
      joined = [t.qualified] := by
  intro t registry filter r
  have hcheck : Request.check .default r =
      .ok ⟨⟨2024, 2, 1, by decide⟩, ⟨2024, 3, 1, by decide⟩⟩ := by decide
  have hcountry : registry.table "shop" "_user" ⟨"visit", some "country"⟩ = some t := by
    decide +kernel
  have hfound : registry.table "shop" "_user" ⟨"visit", some "country"⟩ ≠ none := by
    simp [hcountry]
  have hage : registry.table "shop" "_user" ⟨"visit", some "age"⟩ = none := by decide +kernel
  have hreferences : filter.references = ["country", "age"] := rfl
  have hdim : ¬ LacksDimension (some "age") (registry.table "shop" "_user") "visit" filter := by
    rintro ⟨d, hd, hmentions, -⟩
    obtain rfl := Option.some.inj hd
    simp [hreferences] at hmentions
  have hc := compile_of_check registry hcheck
  obtain ⟨period, -, queries, hsql, hsteps⟩ := forall_steps_scoped hc
  obtain ⟨query, rest, hquery, hrest, rfl⟩ := List.forall₂_cons_left_iff.1 hsteps
  obtain rfl := List.forall₂_nil_left_iff.1 hrest
  obtain ⟨base, joined, ⟨-, hscoped, rfl⟩ | ⟨d, -, hd, hmentions, -⟩⟩ := hquery filter rfl
    (by decide) ⟨"country", by simp [hreferences], hfound⟩ hdim
  · obtain rfl := hscoped.first (hscoped.events.2 ⟨"age", by simp [hreferences], hage⟩)
    have hprefix : (filter.readFrom
          (columnPrefix (registry.table "shop" "_user") "visit" filter)).render =
        t.qualified ++ ".country = 'de' AND visit.age > 18" := by decide +kernel
    have hsource : (some "age").map (fun d ↦
        (sourceName (registry.table "shop" "_user") "visit" d, d)) = some ("visit", "age") := by
      decide +kernel
    refine ⟨_, period, joined, hc, ?_, ?_⟩
    · rw [← hprefix, ← hsource]
      exact hsql
    · have hall : ∀ name ∈ joined, name = t.qualified := by
        intro name hname
        have hvisit : name ≠ "visit" := by
          rintro rfl
          exact (List.nodup_cons.1 hscoped.distinct).1 hname
        obtain ⟨x, hx, t', ht', rfl⟩ :=
          (hscoped.others name (List.mem_cons_of_mem _ hname)).resolve_left hvisit
        rw [hreferences, List.mem_pair] at hx
        obtain rfl | rfl := hx
        · rw [Option.some.inj (hcountry.symm.trans ht')]
        · cases hage.symm.trans ht'
      have hcount := hscoped.tables "country" (by simp [hreferences]) t hcountry
      have hother : "visit" ≠ t.qualified := by decide +kernel
      rw [List.count_cons_of_ne hother, List.eq_replicate_of_mem hall,
        List.count_replicate_self] at hcount
      rw [List.eq_replicate_of_mem hall, hcount]
      rfl
  · obtain rfl := Option.some.inj hd
    simp [hreferences] at hmentions

end Funnel
