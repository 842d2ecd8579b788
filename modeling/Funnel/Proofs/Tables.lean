import Funnel.Compile
import Funnel.Proofs.Rewriting
import Mathlib

/-!
# The Tables Behind a Request

Looking up the tables of a request is a run over two remembered listings.  Whatever the registry
would answer to a second question, every look-up of a run sees its first answers, and a failure is a
listing without tables.  So the run amounts to a fixed table for each user set
(`Registry.table`), and the result of a compilation is the one that these tables determine
(`compile_result`).
-/

namespace Funnel

/-! ## Listings -/

/-- What a project's schema holds according to the first answer of the registry. -/
def Registry.listed (registry : Registry) (project : String) (schema : Schema) : List String :=
  (registry.answer schema project 0).getD []

/-- The table of a user set in the first answers of the registry, continuous tables first. -/
def Registry.table (registry : Registry) (project connector : String) (set : UserSet) :
    Option DailyTable :=
  let name := set.tableName connector
  if name ∈ registry.listed project .continuous then some ⟨.continuous, name⟩
  else if name ∈ registry.listed project .materialized then some ⟨.materialized, name⟩
  else none

theorem Registry.table_eq_none_iff {registry : Registry} {project connector : String}
    {set : UserSet} :
    registry.table project connector set = none ↔
      ∀ schema, set.tableName connector ∉ registry.listed project schema := by
  constructor
  · intro h schema hmem
    unfold Registry.table at h
    cases schema with
    | continuous => simp [hmem] at h
    | materialized =>
      by_cases hc : set.tableName connector ∈ registry.listed project .continuous
      · simp [hc] at h
      · simp [hc, hmem] at h
  · intro h
    simp [Registry.table, h .continuous, h .materialized]

/-- A listing that was never asked for, or that holds the first answer of its source. -/
def Listing.Settled (source : Nat → Option (List String)) (l : Listing) : Prop :=
  l = .unread ∨ l.tables = some ((source 0).getD [])

theorem Listing.read_fst {source : Nat → Option (List String)} {l : Listing}
    (h : l.Settled source) : (Listing.read source l).1 = (source 0).getD [] := by
  rcases h with rfl | h
  · rfl
  · simp [Listing.read, h]

theorem Listing.Settled.read {source : Nat → Option (List String)} {l : Listing}
    (h : l.Settled source) : (Listing.read source l).2.Settled source := by
  rcases h with rfl | h
  · exact .inr rfl
  · refine .inr ?_
    simp [Listing.read, h]

namespace Listings

variable {registry : Registry} {project : String}

/-- Both listings hold first answers, as far as they were asked for. -/
structure Settled (registry : Registry) (project : String) (s : Listings) : Prop where
  continuous : s.continuous.Settled (registry.answer .continuous project)
  materialized : s.materialized.Settled (registry.answer .materialized project)

theorem settled_unread : Settled registry project unread := ⟨.inl rfl, .inl rfl⟩

/-- Every schema shows its first answer, and goes on to do so. -/
theorem tables_of_settled {s : Listings} (hs : Settled registry project s) (schema : Schema) :
    ∃ s', Settled registry project s' ∧
      tables registry project schema s = (registry.listed project schema, s') := by
  cases schema with
  | continuous =>
    have hread := Listing.read_fst hs.continuous
    refine ⟨{ s with continuous := (Listing.read _ s.continuous).2 },
      ⟨hs.continuous.read, hs.materialized⟩, ?_⟩
    exact Prod.ext hread rfl
  | materialized =>
    have hread := Listing.read_fst hs.materialized
    refine ⟨{ s with materialized := (Listing.read _ s.materialized).2 },
      ⟨hs.continuous, hs.materialized.read⟩, ?_⟩
    exact Prod.ext hread rfl

/-- One look-up finds the table that the first answers determine. -/
theorem find_of_settled {s : Listings} (hs : Settled registry project s) (connector : String)
    (set : UserSet) :
    ∃ s', Settled registry project s' ∧
      find registry project (set.tableName connector) s =
        (registry.table project connector set, s') := by
  obtain ⟨s₁, hs₁, hc⟩ := tables_of_settled hs .continuous
  obtain ⟨s₂, hs₂, hm⟩ := tables_of_settled hs₁ .materialized
  by_cases hmem : set.tableName connector ∈ registry.listed project .continuous
  · refine ⟨s₁, hs₁, ?_⟩
    simp [find, bind, StateT.bind, hc, Registry.table, hmem, pure, StateT.pure]
  · refine ⟨s₂, hs₂, ?_⟩
    simp [find, bind, StateT.bind, hc, hm, Registry.table, hmem, pure, StateT.pure]

/-- A run of look-ups pairs every user set with its table. -/
theorem findAll_of_settled (connector : String) (sets : List UserSet) {s : Listings}
    (hs : Settled registry project s) :
    ∃ s', Settled registry project s' ∧
      findAll registry project connector sets s =
        (sets.map fun set ↦ (set, registry.table project connector set), s') := by
  induction sets generalizing s with
  | nil => exact ⟨s, hs, rfl⟩
  | cons set sets ih =>
    obtain ⟨s₁, hs₁, hfind⟩ := find_of_settled hs connector set
    obtain ⟨s₂, hs₂, hrest⟩ := ih hs₁
    refine ⟨s₂, hs₂, ?_⟩
    simp [findAll, bind, StateT.bind, hfind, hrest, pure, StateT.pure]

end Listings

/-- Among the tables that were looked up, each set that was looked up has its own. -/
theorem tableAmong_map {table : UserSet → Option DailyTable} {sets : List UserSet} {set : UserSet}
    (h : set ∈ sets) : tableAmong (sets.map fun x ↦ (x, table x)) set = table set := by
  induction sets with
  | nil => cases h
  | cons head rest ih =>
    by_cases heq : set = head
    · subst heq
      simp [tableAmong]
    · have hrest : set ∈ rest := by simpa [heq] using h
      have hne : (set == head) = false := by simp [heq]
      rw [← ih hrest]
      simp [tableAmong, List.lookup, hne]

/-! ## Plans -/

namespace Setting

variable {s : Setting} {find find' : UserSet → Option DailyTable} {collection : String} {f : Filter}

/-- Two ways to find tables agree on the columns of a filter. -/
def AgreeOn (find find' : UserSet → Option DailyTable) (collection : String) (f : Filter) : Prop :=
  ∀ x ∈ f.columns, columnTable find collection x = columnTable find' collection x

theorem AgreeOn.coveringTables (h : AgreeOn find find' collection f) :
    coveringTables find collection f = Setting.coveringTables find' collection f :=
  List.filterMap_congr h

theorem AgreeOn.uncoveredColumns (h : AgreeOn find find' collection f) :
    uncoveredColumns find collection f = Setting.uncoveredColumns find' collection f :=
  List.filter_congr fun x hx ↦ by rw [h x hx]

theorem AgreeOn.columnSource (h : AgreeOn find find' collection f) {x : String}
    (hx : x ∈ f.references) :
    columnSource find collection f x = Setting.columnSource find' collection f x := by
  unfold Setting.columnSource
  rw [h x (Filter.mem_columns.2 hx), h.coveringTables]

theorem AgreeOn.filtered (h : AgreeOn find find' collection f) (s : Setting) (condition : String)
    (shown : Option String) (hshown : ∀ d ∈ shown, f.mentions d) :
    s.filtered find collection f condition shown =
      s.filtered find' collection f condition shown := by
  have hbucket : (shown.map fun d ↦ Scalar.column (some (bucketSource find collection d)) d) =
      shown.map fun d ↦ Scalar.column (some (bucketSource find' collection d)) d := by
    refine Option.map_congr fun d hd ↦ ?_
    have hd' : d ∈ f.columns := Filter.mem_columns.2 (Filter.mentions_iff.1 (hshown d hd))
    unfold bucketSource
    rw [h d hd']
  unfold Setting.filtered
  rw [h.coveringTables, h.uncoveredColumns, hbucket]

/-- The plan of a filter depends on the tables of its columns, and on the table of the dimension
if the filter is supported and does not mention it. -/
theorem planFiltered_congr (h : AgreeOn find find' collection f)
    (hd : ∀ d ∈ s.dimension, f.supported → f.mentions d = false →
      columnTable find collection d = columnTable find' collection d) :
    s.planFiltered find collection f = s.planFiltered find' collection f := by
  have hrewrite : (f.rewriteWith fun x ↦ (columnSource find collection f x).map Source.name) =
      f.rewriteWith fun x ↦ (columnSource find' collection f x).map Source.name :=
    Filter.rewriteWith_congr fun x hx ↦ by rw [h.columnSource hx]
  unfold planFiltered
  simp only [hrewrite]
  cases hsupported : f.supported with
  | false =>
    obtain ⟨e, he⟩ := Filter.rewriteWith_of_not_supported hsupported
      fun x ↦ (columnSource find' collection f x).map Source.name
    simp only [he]
  | true =>
    obtain ⟨text, htext⟩ := Filter.rewriteWith_of_supported hsupported
      fun x ↦ (columnSource find' collection f x).map Source.name
    simp only [htext, h.uncoveredColumns]
    cases hdim : s.dimension with
    | none =>
      have hplain := h.filtered s text none (by simp)
      simp only [hplain]
    | some d =>
      cases hmentions : f.mentions d with
      | true =>
        have hshown := h.filtered s text (some d) (by simpa using hmentions)
        simp only [hmentions, hshown, if_true]
      | false =>
        have hplain := h.filtered s text none (by simp)
        simp only [hmentions, hplain, hd d hdim hsupported hmentions, Bool.false_eq_true, if_false]

theorem plan_congr {step : Step} (h : ∀ set ∈ step.wanted s.dimension, find set = find' set) :
    s.plan find step = s.plan find' step := by
  unfold plan
  unfold Step.wanted at h
  cases hfilter : step.filter with
  | none =>
    simp only [hfilter] at h ⊢
    unfold planUnfiltered
    rw [h _ (List.mem_singleton.2 rfl)]
  | some f =>
    simp only [hfilter] at h ⊢
    apply planFiltered_congr
    · intro x hx
      exact h _ (List.mem_append_left _ (List.mem_map_of_mem hx))
    · intro d hd hsupported hmentions
      refine h _ (List.mem_append_right _ (List.mem_map_of_mem ?_))
      simp [Option.mem_def.1 hd, hsupported, hmentions]

/-- Tables that were looked up give a step its plan, if those that it wants are among them. -/
theorem plan_tableAmong {step : Step} {sets : List UserSet}
    (h : ∀ set ∈ step.wanted s.dimension, set ∈ sets) :
    s.plan (tableAmong (sets.map fun set ↦ (set, find set))) step = s.plan find step :=
  plan_congr fun set hset ↦ tableAmong_map (h set hset)

end Setting

/-! ## Compilations -/

/-- Checks apart, a compilation gives what the steps and the tables of their user sets determine. -/
theorem compile_result (config : Config) (registry : Registry) (r : Request) :
    (compile config registry r).result = (r.check config).map fun period ↦
      Setting.compiled ⟨config, period, r.dimension⟩
        (registry.table r.project config.connectorField) r.steps := by
  unfold compile
  cases hcheck : r.check config with
  | error e => rfl
  | ok period =>
    have hunread : Listings.Settled registry r.project .unread := Listings.settled_unread
    obtain ⟨s, -, hrun⟩ := Listings.findAll_of_settled config.connectorField r.wanted hunread
    have hplans : ∀ step ∈ r.steps,
        Setting.plan ⟨config, period, r.dimension⟩ (tableAmong (r.wanted.map fun set ↦
          (set, registry.table r.project config.connectorField set))) step =
        Setting.plan ⟨config, period, r.dimension⟩
          (registry.table r.project config.connectorField) step := by
      intro step hstep
      refine Setting.plan_tableAmong fun set hset ↦ ?_
      exact List.mem_flatMap.2 ⟨step, hstep, hset⟩
    simp only [StateT.run, hrun, Except.map, Setting.compiled, Setting.plans]
    rw [List.map_congr_left hplans]

end Funnel
