import Funnel.Proofs.Identifiers
import Funnel.Proofs.Scoping
import Mathlib

/-!
# Collections Named Like a Step

The query of a step reads raw events and tables by their names, and the steps before it come first:
what has the name of an earlier step cannot be read.  Tables are never hidden in this way, because
their names begin with a schema.  Raw events are hidden exactly if their collection is named like a
step that stands before (`sources_read_stored_iff`); a request may hold such a step, because only
the dimension is compared with the names that a statement makes up.
-/

namespace Funnel

open Text (SameIdentifier)

/-! ## Reading by name -/

/-- What a name stands for in a query, given what the steps before it have: the rows of the step
with this name, and otherwise what is stored under the name. -/
def readName {α : Type} (results : List α) (stored : String → α) (name : String) : α :=
  match (named results).find? fun p ↦ decide (SameIdentifier name p.1) with
  | some p => p.2
  | none => stored name

section Reading

variable {α : Type} {results : List α} {stored : String → α} {name : String}

theorem mem_named {p : String × α} :
    p ∈ named results ↔ ∃ i, ∃ hi : i < results.length, (stepName i, results[i]) = p :=
  List.mem_mapIdx

theorem readName_of_not_sameIdentifier
    (h : ∀ i < results.length, ¬ SameIdentifier name (stepName i)) :
    readName results stored name = stored name := by
  have hnone : (named results).find? (fun p ↦ decide (SameIdentifier name p.1)) = none := by
    rw [List.find?_eq_none]
    intro p hp
    obtain ⟨i, hi, rfl⟩ := mem_named.1 hp
    simpa using h i hi
  rw [readName, hnone]

/-- A name of a step stands for that step alone. -/
theorem readName_of_sameIdentifier {i : Nat} (hi : i < results.length)
    (h : SameIdentifier name (stepName i)) : readName results stored name = results[i] := by
  have hsome : ((named results).find? fun p ↦ decide (SameIdentifier name p.1)).isSome := by
    rw [List.find?_isSome]
    exact ⟨_, mem_named.2 ⟨i, hi, rfl⟩, by simpa using h⟩
  obtain ⟨p, hp⟩ := Option.isSome_iff_exists.1 hsome
  obtain ⟨k, hk, rfl⟩ := mem_named.1 (List.mem_of_find?_eq_some hp)
  have hname : SameIdentifier name (stepName k) := by simpa using List.find?_some hp
  obtain rfl : k = i := sameIdentifier_stepName_iff.1 (hname.symm.trans h)
  rw [readName, hp]

end Reading

/-- Behind `j` steps the name stands for what is stored under it, whatever is in the steps and
whatever is stored. -/
def ReadsStored (j : Nat) (name : String) : Prop :=
  ∀ (α : Type) (results : List α) (stored : String → α), results.length = j →
    readName results stored name = stored name

theorem readsStored_iff {j : Nat} {name : String} :
    ReadsStored j name ↔ ∀ i < j, ¬ SameIdentifier name (stepName i) := by
  constructor
  · intro h i hi hname
    have hread := h Bool (List.replicate j true) (fun _ ↦ false) List.length_replicate
    have hi' : i < (List.replicate j true).length := by rwa [List.length_replicate]
    rw [readName_of_sameIdentifier hi' hname, List.getElem_replicate] at hread
    exact Bool.noConfusion hread
  · rintro h α results stored rfl
    exact readName_of_not_sameIdentifier h

/-! ## What a step reads -/

def Part.sources : Part → List Source
  | daily t => [.table t]
  | filtered inner => inner.items

/-- The raw events and the tables that the query of a step reads, also by a query inside it. -/
def Body.sources : Body → List Source
  | simple s => s.items
  | outer s => s.items.flatMap Part.sources

/-- A table, or the raw events of one collection. -/
def Source.IsOf (collection : String) (item : Source) : Prop :=
  item = .events collection ∨ ∃ t, item = .table t

namespace Setting

variable {s : Setting} {find : UserSet → Option DailyTable} {collection : String} {f : Filter}
  {item : Source}

theorem isOf_of_mem_fromEvents {dimension condition : Option String}
    (h : item ∈ (s.fromEvents collection dimension condition).items) : item.IsOf collection :=
  .inl (List.mem_singleton.1 h)

/-- The items of the query of a filter with a table: the raw events if some column has no table,
and the tables. -/
theorem items_filtered (hcovered : coveringTables find collection f ≠ []) (condition : String)
    (shown : Option String) :
    (s.filtered find collection f condition shown).items =
      (if (uncoveredColumns find collection f).isEmpty then [] else [.events collection]) ++
        (coveringTables find collection f).map .table := by
  unfold filtered
  cases hcovering : coveringTables find collection f with
  | nil => exact absurd hcovering hcovered
  | cons first others =>
    cases (uncoveredColumns find collection f).isEmpty <;> simp [items_fromJoined]

theorem isOf_of_mem_filtered {condition : String} {shown : Option String}
    (h : item ∈ (s.filtered find collection f condition shown).items) : item.IsOf collection := by
  by_cases hcovered : coveringTables find collection f = []
  · rw [filtered, hcovered] at h
    exact isOf_of_mem_fromEvents h
  · rw [items_filtered hcovered, List.mem_append] at h
    rcases h with h | h
    · cases huncovered : (uncoveredColumns find collection f).isEmpty with
      | true => simp [huncovered] at h
      | false => exact .inl (by simpa [huncovered] using h)
    · obtain ⟨t, -, rfl⟩ := List.mem_map.1 h
      exact .inr ⟨t, rfl⟩

theorem isOf_of_mem_withDimension {t : DailyTable} {d : String} {inner : Select Source}
    (hinner : ∀ item ∈ inner.items, item.IsOf collection)
    (h : item ∈ (Body.outer (s.withDimension t d inner)).sources) : item.IsOf collection := by
  have hsources : (Body.outer (s.withDimension t d inner)).sources = .table t :: inner.items := by
    simp [Body.sources, Select.items, withDimension, Part.sources]
  rw [hsources, List.mem_cons] at h
  rcases h with rfl | h
  · exact .inr ⟨t, rfl⟩
  · exact hinner item h

/-- A step reads tables and the raw events of its own collection, and nothing else. -/
theorem isOf_of_mem_sources_plan {step : Step} (h : item ∈ (s.plan find step).body.sources) :
    item.IsOf step.collection := by
  unfold plan at h
  cases hfilter : step.filter with
  | none =>
    simp only [hfilter, planUnfiltered] at h
    cases htable : find ⟨step.collection, s.dimension⟩ with
    | none =>
      rw [htable] at h
      exact isOf_of_mem_fromEvents h
    | some t =>
      rw [htable] at h
      exact .inr ⟨t, List.mem_singleton.1 h⟩
  | some f =>
    simp only [hfilter] at h
    cases hsupported : f.supported with
    | false =>
      rw [planFiltered_of_not_supported hsupported] at h
      exact isOf_of_mem_fromEvents h
    | true =>
      rcases @body_planFiltered_cases s find step.collection f hsupported with
        ⟨-, hbody⟩ | ⟨d, t, -, -, -, hbody⟩ | ⟨-, hbody⟩
      · rw [hbody] at h
        exact isOf_of_mem_fromEvents h
      · rw [hbody] at h
        exact isOf_of_mem_withDimension (fun _ ↦ isOf_of_mem_filtered) h
      · rw [hbody] at h
        exact isOf_of_mem_filtered h

end Setting

/-! ## All steps -/

/-- Every step reads tables and the raw events of its collection.  It reads what is stored under
their names, except that raw events are those of an earlier step if the collection has its name. -/
theorem sources_read_stored_iff {config : Config} {registry : Registry} {r : Request} {c : Compiled}
    (h : (compile config registry r).result = .ok c) :
    ∃ period, r.check config = .ok period ∧
      let s : Setting := ⟨config, period, r.dimension⟩
      let bodies := (s.plans (registry.table r.project config.connectorField) r.steps).map
        StepPlan.body
      c.sql = s.statementSql bodies ∧
      ∀ (j : Nat) (step : Step) (body : Body), r.steps[j]? = some step → bodies[j]? = some body →
        ∀ item ∈ body.sources,
          (item = .events step.collection ∨ ∃ t, item = .table t) ∧
          (ReadsStored j item.name ↔ ¬ (item = .events step.collection ∧
            ∃ i < j, SameIdentifier step.collection (stepName i))) ∧
          ∀ i < j, SameIdentifier item.name (stepName i) → item = .events step.collection ∧
            ∀ (α : Type) (results : List α) (stored : String → α), results.length = j →
              results[i]? = some (readName results stored item.name) := by
  obtain ⟨period, hcheck, rfl⟩ := compile_eq_ok_iff.1 h
  refine ⟨period, hcheck, rfl, ?_⟩
  intro j step body hstep hbody item hitem
  rw [Setting.plans, List.map_map, List.getElem?_map, hstep] at hbody
  obtain rfl := Option.some.inj hbody
  have hof : item.IsOf step.collection := Setting.isOf_of_mem_sources_plan hitem
  have hhidden : ∀ i, SameIdentifier item.name (stepName i) → item = .events step.collection := by
    intro i hname
    refine hof.resolve_right ?_
    rintro ⟨t, rfl⟩
    exact not_sameIdentifier_qualified t i hname
  refine ⟨hof, ?_, ?_⟩
  · rw [readsStored_iff]
    constructor
    · rintro hnone ⟨rfl, i, hi, hname⟩
      exact hnone i hi hname
    · intro hnot i hi hname
      obtain rfl := hhidden i hname
      exact hnot ⟨rfl, i, hi, hname⟩
  · intro i hi hname
    refine ⟨hhidden i hname, ?_⟩
    rintro α results stored rfl
    rw [readName_of_sameIdentifier hi hname, List.getElem?_eq_getElem hi]

/-- The second step counts the users of the first one, because its collection is named like it. -/
theorem second_step_reads_first :
    let registry : Registry := .ofCatalog .empty
    let r : Request := ⟨"shop", [⟨"visit", none⟩, ⟨"Step0", none⟩], none, ⟨2024, 2, 1, by decide⟩,
      ⟨2024, 2, 29, by decide⟩⟩
    ∃ c period first second, (compile .default registry r).result = .ok c ∧
      c.sql = Setting.statementSql ⟨.default, period, none⟩ [first, second] ∧
      first.sources = [.events "visit"] ∧ ReadsStored 0 "visit" ∧
      second.sources = [.events "Step0"] ∧ ¬ ReadsStored 1 "Step0" ∧
      ∀ (visits : List Nat) (stored : String → List Nat),
        readName [visits] stored "Step0" = visits := by
  intro registry r
  have hcheck : Request.check .default r =
      .ok ⟨⟨2024, 2, 1, by decide⟩, ⟨2024, 3, 1, by decide⟩⟩ := by decide
  have hname : SameIdentifier "Step0" (stepName 0) := by decide +kernel
  have hc := compile_of_check registry hcheck
  obtain ⟨period, -, hsql, hsteps⟩ := sources_read_stored_iff hc
  have hvisit : .events "visit" ∈ [Source.events "visit"] := List.mem_singleton.2 rfl
  have hstep : .events "Step0" ∈ [Source.events "Step0"] := List.mem_singleton.2 rfl
  obtain ⟨-, hfirst, -⟩ := hsteps 0 ⟨"visit", none⟩ _ rfl rfl _ hvisit
  obtain ⟨-, hsecond, hrows⟩ := hsteps 1 ⟨"Step0", none⟩ _ rfl rfl _ hstep
  refine ⟨_, period, _, _, hc, hsql, rfl, ?_, rfl, ?_, ?_⟩
  · exact hfirst.2 (by simp)
  · exact fun hstored ↦ hsecond.1 hstored ⟨rfl, 0, Nat.one_pos, hname⟩
  · intro visits stored
    have hread := (hrows 0 Nat.one_pos hname).2 _ [visits] stored rfl
    exact (Option.some.inj hread).symm

end Funnel
