import Funnel.Proofs.Identifiers
import Funnel.Proofs.Independence
import Mathlib

/-!
# Columns with One Name

The columns of a step are named by the configuration, except for the bucket, and the dimension of a
result is named by the request.  What is checked of these names does not keep them apart: the
columns of a step are never compared with each other, and the dimension is compared with the result
columns together with the white space around it.  The names that clash in an accepted request are
exactly those (`columns_apart_iff`).
-/

namespace Funnel

open Text (SameIdentifier trimmed)

/-! ## The columns of a step -/

/-- The name under which a query shows a value. -/
def Output.name {ι : Type} (o : Output ι) : String :=
  match o.shownAs, o.value with
  | some name, _ => name
  | none, .column _ name => name
  | none, .day _ name => name

/-- The names of the columns that the query of a step shows. -/
def Body.columnNames : Body → List String
  | simple s => s.columns.map Output.name
  | outer s => s.columns.map Output.name

/-- The columns of a step. -/
def stepColumns (bucketed : Bool) : List StepColumn :=
  .day :: (if bucketed then [.bucket] else []) ++ [.user]

namespace Setting

theorem columnNames_fromEvents (s : Setting) (collection : String)
    (shown condition : Option String) :
    (Body.simple (s.fromEvents collection shown condition)).columnNames =
      (stepColumns shown.isSome).map s.columnName := by
  cases shown <;> rfl

theorem columnNames_filtered (s : Setting) (find : UserSet → Option DailyTable)
    (collection : String) (f : Filter) (condition : String) (shown : Option String) :
    (Body.simple (s.filtered find collection f condition shown)).columnNames =
      (stepColumns shown.isSome).map s.columnName := by
  unfold filtered
  cases coveringTables find collection f with
  | nil => exact columnNames_fromEvents s collection shown (some condition)
  | cons first others =>
    cases (uncoveredColumns find collection f).isEmpty <;> cases shown <;> rfl

/-- Every plan shows the columns of a step. -/
theorem columnNames_plan (s : Setting) (find : UserSet → Option DailyTable) (step : Step) :
    (s.plan find step).body.columnNames = (stepColumns s.dimension.isSome).map s.columnName := by
  unfold plan
  cases step.filter with
  | none =>
    unfold planUnfiltered
    cases find ⟨step.collection, s.dimension⟩ with
    | none => exact columnNames_fromEvents s _ _ _
    | some t =>
      simp only [Body.columnNames, fromTable]
      cases s.dimension <;> rfl
  | some f =>
    cases hsupported : f.supported with
    | false =>
      simp only [planFiltered_of_not_supported hsupported]
      exact columnNames_fromEvents s _ _ _
    | true =>
      obtain ⟨condition, hcondition⟩ := Filter.rewriteWith_of_supported hsupported
        fun x ↦ (columnSource find step.collection f x).map Source.name
      simp only [planFiltered, hcondition]
      cases hdim : s.dimension with
      | none => exact columnNames_filtered s find step.collection f condition none
      | some d =>
        simp only []
        split
        · exact columnNames_filtered s find step.collection f condition (some d)
        · cases columnTable find step.collection d with
          | none => exact columnNames_fromEvents s step.collection (some d) (some f.render)
          | some t => rfl

end Setting

/-! ## Unambiguous names -/

/-- Exactly one column of the query has this name. -/
def Body.ShowsOnce (b : Body) (name : String) : Prop :=
  b.columnNames.countP (fun x ↦ decide (SameIdentifier name x)) = 1

/-- The columns of a step are different identifiers. -/
structure Config.ColumnsApart (config : Config) (bucketed : Bool) : Prop where
  day_user : ¬ SameIdentifier config.dateColumn config.connectorField
  day_bucket : bucketed = true → ¬ SameIdentifier config.dateColumn bucketColumn
  bucket_user : bucketed = true → ¬ SameIdentifier bucketColumn config.connectorField

/-- Names are different identifiers if each of them stands for one name of the list. -/
theorem pairwise_not_sameIdentifier_iff (names : List String) :
    names.Pairwise (fun x y ↦ ¬ SameIdentifier x y) ↔
      ∀ x ∈ names, names.countP (fun y ↦ decide (SameIdentifier x y)) = 1 := by
  induction names with
  | nil => simp
  | cons a names ih =>
    have hself : (decide (SameIdentifier a a)) = true := decide_eq_true (.refl a)
    have hfirst : (a :: names).countP (fun y ↦ decide (SameIdentifier a y)) = 1 ↔
        ∀ y ∈ names, ¬ SameIdentifier a y := by
      rw [List.countP_cons, if_pos hself, Nat.add_eq_right, List.countP_eq_zero]
      simp
    rw [List.pairwise_cons, List.forall_mem_cons, hfirst, ih]
    refine and_congr_right fun hapart ↦ forall₂_congr fun x hx ↦ ?_
    have hother : ¬ decide (SameIdentifier x a) = true := by
      simpa using fun hsame ↦ hapart x hx (.symm hsame)
    rw [List.countP_cons, if_neg hother, Nat.add_zero]

namespace Setting

variable {s : Setting}

theorem pairwise_columns_iff (s : Setting) :
    ((stepColumns s.dimension.isSome).map s.columnName).Pairwise
        (fun x y ↦ ¬ SameIdentifier x y) ↔ s.config.ColumnsApart s.dimension.isSome := by
  cases s.dimension.isSome with
  | false =>
    simp only [stepColumns, columnName, Bool.false_eq_true, if_false, List.cons_append,
      List.nil_append, List.map_cons, List.map_nil, List.pairwise_pair]
    exact ⟨fun h ↦ ⟨h, by simp, by simp⟩, fun h ↦ h.day_user⟩
  | true =>
    simp only [stepColumns, columnName, if_true, List.cons_append, List.nil_append, List.map_cons,
      List.map_nil, List.pairwise_cons, List.forall_mem_cons]
    constructor
    · rintro ⟨⟨hbucket, huser, -⟩, ⟨hother, -⟩, -⟩
      exact ⟨huser, fun _ ↦ hbucket, fun _ ↦ hother⟩
    · rintro ⟨huser, hbucket, hother⟩
      simp [huser, hbucket rfl, hother rfl]

/-- The conditions of a link compare the columns of a step, each with itself. -/
theorem columns_toPrevious (bucketed : Bool) (i : Nat) :
    (Link.toPrevious bucketed i).conditions.map (fun c ↦ (c.left.column, c.right.column)) =
      (stepColumns bucketed).map fun column ↦ (column, column) := by
  cases bucketed <;> rfl

/-- The names in the links stand for one column each exactly if the columns of a step are different
identifiers. -/
theorem showsOnce_links_iff {body : Body}
    (hbody : body.columnNames = (stepColumns s.dimension.isSome).map s.columnName) (i : Nat) :
    (∀ c ∈ (Link.toPrevious s.dimension.isSome i).conditions,
        body.ShowsOnce (s.columnName c.left.column) ∧
          body.ShowsOnce (s.columnName c.right.column)) ↔
      body.columnNames.Pairwise (fun x y ↦ ¬ SameIdentifier x y) := by
  have hcolumns := columns_toPrevious s.dimension.isSome i
  rw [pairwise_not_sameIdentifier_iff]
  constructor
  · intro h x hx
    rw [hbody, List.mem_map] at hx
    obtain ⟨column, hcolumn, rfl⟩ := hx
    have hmem : (column, column) ∈ (Link.toPrevious s.dimension.isSome i).conditions.map
        fun c ↦ (c.left.column, c.right.column) := by
      rw [hcolumns]
      exact List.mem_map_of_mem hcolumn
    obtain ⟨c, hc, heq⟩ := List.mem_map.1 hmem
    obtain ⟨rfl, -⟩ := Prod.mk.inj heq
    exact (h c hc).1
  · intro h c hc
    have hmem : (c.left.column, c.right.column) ∈
        (stepColumns s.dimension.isSome).map fun column ↦ (column, column) := by
      rw [← hcolumns]
      exact List.mem_map_of_mem hc
    obtain ⟨column, hcolumn, heq⟩ := List.mem_map.1 hmem
    obtain ⟨hleft, hright⟩ := Prod.mk.inj heq
    have hname : s.columnName column ∈ body.columnNames := by
      rw [hbody]
      exact List.mem_map_of_mem hcolumn
    rw [← hleft, ← hright]
    exact ⟨h _ hname, h _ hname⟩

end Setting

/-! ## The dimension of a result -/

/-- A dimension is accepted exactly if it is not the connector, not blank and not named like a
result column, as the names are written. -/
theorem Request.dimensionFault?_eq_none_iff {config : Config} {d : String} :
    dimensionFault? config d = none ↔ d ≠ config.connectorField ∧ Text.allBlank d = false ∧
      ∀ name ∈ resultColumns, Text.sameIgnoringCase d name = false := by
  unfold dimensionFault?
  split
  · next h => simp [h]
  · next h =>
    split
    · next hblank => simp [hblank]
    · next hblank =>
      split
      · next hresult =>
        obtain ⟨name, hname, hsame⟩ := List.any_eq_true.1 hresult
        refine iff_of_false (by simp) fun hall ↦ ?_
        simp [hall.2.2 name hname] at hsame
      · next hresult => simpa [h, hblank] using hresult

theorem Request.trimmed_resultColumn {name : String} (h : name ∈ resultColumns) :
    trimmed name = name := by
  simp only [resultColumns, List.mem_cons, List.not_mem_nil, or_false] at h
  obtain rfl | rfl | rfl := h <;> decide +kernel

/-- An accepted dimension is the identifier of a result column only if there is white space around
it. -/
theorem Request.sameIdentifier_resultColumn_iff {config : Config} {d : String}
    (h : dimensionFault? config d = none) {name : String} (hname : name ∈ resultColumns) :
    SameIdentifier d name ↔ trimmed d ≠ d ∧ Text.sameIgnoringCase (trimmed d) name = true := by
  rw [SameIdentifier, trimmed_resultColumn hname, iff_and_self]
  intro hsame heq
  rw [heq, (dimensionFault?_eq_none_iff.1 h).2.2 name hname] at hsame
  exact Bool.noConfusion hsame

/-! ## Accepted requests -/

/-- The columns of every step are different identifiers exactly if the configured names and the name
of the bucket are, and then each name in the links stands for one column.  The dimension is one
identifier with a result column exactly if it is its name with white space around it. -/
theorem columns_apart_iff {config : Config} {registry : Registry} {r : Request} {c : Compiled}
    (h : (compile config registry r).result = .ok c) :
    ∃ period, r.check config = .ok period ∧
      let s : Setting := ⟨config, period, r.dimension⟩
      let bodies := (s.plans (registry.table r.project config.connectorField) r.steps).map
        StepPlan.body
      c.sql = s.statementSql bodies ∧
      (∀ body ∈ bodies,
        body.columnNames = (stepColumns r.dimension.isSome).map s.columnName ∧
        (body.columnNames.Pairwise (fun x y ↦ ¬ SameIdentifier x y) ↔
          config.ColumnsApart r.dimension.isSome) ∧
        ∀ i, (∀ c ∈ (Link.toPrevious r.dimension.isSome i).conditions,
            body.ShowsOnce (s.columnName c.left.column) ∧
              body.ShowsOnce (s.columnName c.right.column)) ↔
          config.ColumnsApart r.dimension.isSome) ∧
      ∀ d, r.dimension = some d → ∀ name ∈ Request.resultColumns,
        (SameIdentifier d name ↔
          trimmed d ≠ d ∧ Text.sameIgnoringCase (trimmed d) name = true) := by
  obtain ⟨period, hcheck, rfl⟩ := compile_eq_ok_iff.1 h
  refine ⟨period, hcheck, rfl, ?_, ?_⟩
  · intro body hbody
    simp only [Setting.plans, List.map_map, List.mem_map, Function.comp_apply] at hbody
    obtain ⟨step, -, rfl⟩ := hbody
    have hnames := Setting.columnNames_plan ⟨config, period, r.dimension⟩
      (registry.table r.project config.connectorField) step
    have hpairwise := Setting.pairwise_columns_iff ⟨config, period, r.dimension⟩
    rw [← hnames] at hpairwise
    exact ⟨hnames, hpairwise, fun i ↦ (Setting.showsOnce_links_iff hnames i).trans hpairwise⟩
  · intro d hd name hname
    have hfault := (Request.fault?_eq_none_iff.1 (Request.check_eq_ok_iff.1 hcheck).2.1).2.1
    rw [hd, Option.bind_some] at hfault
    exact Request.sameIdentifier_resultColumn_iff hfault hname

/-- Users are told apart by a column that is named like the bucket, and the dimension is named like
a result column with a blank behind it. -/
theorem columns_clash_with_bucket_and_result :
    let config : Config := { Config.default with connectorField := "Dimension" }
    let r : Request := ⟨"shop", [⟨"visit", none⟩, ⟨"buy", none⟩], some "step ",
      ⟨2024, 2, 1, by decide⟩, ⟨2024, 2, 29, by decide⟩⟩
    ∃ c period first second, (compile config (.ofCatalog .empty) r).result = .ok c ∧
      c.sql = Setting.statementSql ⟨config, period, some "step "⟩ [first, second] ∧
      first.columnNames = ["date", "dimension", "Dimension"] ∧
      ¬ first.columnNames.Pairwise (fun x y ↦ ¬ SameIdentifier x y) ∧
      SameIdentifier "step " "step" := by
  intro config r
  have hcheck : Request.check config r =
      .ok ⟨⟨2024, 2, 1, by decide⟩, ⟨2024, 3, 1, by decide⟩⟩ := by decide
  have hbucket : SameIdentifier bucketColumn "Dimension" := by decide +kernel
  have hblank : trimmed "step " ≠ "step " ∧
      Text.sameIgnoringCase (trimmed "step ") "step" = true := by
    decide +kernel
  have hc := compile_of_check (.ofCatalog .empty) hcheck
  obtain ⟨period, -, hsql, hbodies, hresult⟩ := columns_apart_iff hc
  obtain ⟨hnames, hpairwise, -⟩ := hbodies _ List.mem_cons_self
  refine ⟨_, period, _, _, hc, hsql, hnames, fun hapart ↦ ?_, ?_⟩
  · exact (hpairwise.1 hapart).bucket_user rfl hbucket
  · exact (hresult "step " rfl "step" (by decide)).2 hblank

end Funnel
