import Funnel.Proofs.Qualifying
import Mathlib.Data.List.Induction

/-!
# The Questions of a Rewriting

A rewriting goes through the places of a filter that hold no other filter: its columns and the
expressions that are not understood.  It takes them from left to right (`forM_frontier`), asks its
resolver at the columns and stops at the first expression that is not understood.  So whatever the
answers are, it fails exactly for the filters with an unsupported node, and the names that it asks
for are those that `Filter.columns` collects (`rewrite_asks`).
-/

namespace Funnel.Filter

open Sql (Expr)

/-! ## Places -/

/-- A place of a filter with nothing below it that could be rewritten. -/
inductive Place
  | column (ref : ColumnRef)
  | foreign (e : Expr)
deriving DecidableEq, Repr

mutual

/-- The places of a filter, from left to right. -/
def frontier : Filter → List Place
  | column ref => [.column ref]
  | value _ => []
  | unary _ e => e.frontier
  | binary _ left right => left.frontier ++ right.frontier
  | logical _ left right => left.frontier ++ right.frontier
  | isNull e _ => e.frontier
  | inList e items _ => e.frontier ++ frontierAll items
  | between e low high _ => e.frontier ++ (low.frontier ++ high.frontier)
  | like e pattern _ _ => e.frontier ++ pattern.frontier
  | cast e _ => e.frontier
  | call _ args => frontierAll args
  | unsupported e => [.foreign e]

def frontierAll : List Filter → List Place
  | [] => []
  | e :: es => e.frontier ++ frontierAll es

end

section Visits

variable {m : Type → Type} [Monad m] [LawfulMonad m] {leaf : ColumnRef → m String}
  {foreign : Expr → m String}

/-- What a writer does at a place, without the text. -/
def visit (leaf : ColumnRef → m String) (foreign : Expr → m String) : Place → m PUnit
  | .column ref => (fun _ ↦ ⟨⟩) <$> leaf ref
  | .foreign e => (fun _ ↦ ⟨⟩) <$> foreign e

mutual

/-- Writing a filter does what is to be done at its places, from left to right, and nothing else. -/
theorem forM_frontier (f : Filter) :
    forM f.frontier (visit leaf foreign) = (fun _ ↦ ⟨⟩) <$> write leaf foreign f := by
  cases f with
  | column ref => simp [frontier, write, visit]
  | value v => simp [frontier, write]
  | unary op e => simp [frontier, write, forM_frontier e]
  | binary op left right =>
    simp [frontier, write, forM_frontier left, forM_frontier right]
  | logical op left right =>
    simp [frontier, write, forM_frontier left, forM_frontier right]
  | isNull e negated => simp [frontier, write, forM_frontier e]
  | inList e items negated =>
    simp [frontier, write, forM_frontier e, forM_frontierAll items]
  | between e low high negated =>
    simp [frontier, write, forM_frontier e, forM_frontier low, forM_frontier high]
  | like e pattern negated ignoreCase =>
    simp [frontier, write, forM_frontier e, forM_frontier pattern]
  | cast e type => simp [frontier, write, forM_frontier e]
  | call name args => simp [frontier, write, forM_frontierAll args]
  | unsupported e => simp [frontier, write, visit]

theorem forM_frontierAll (fs : List Filter) :
    forM (frontierAll fs) (visit leaf foreign) = (fun _ ↦ ⟨⟩) <$> writeAll leaf foreign fs := by
  cases fs with
  | nil => simp [frontierAll, writeAll]
  | cons f fs =>
    simp [frontierAll, writeAll, forM_frontier f, forM_frontierAll fs]

end

end Visits

/-! ## Columns and foreign expressions -/

/-- The column at a place. -/
def Place.column? : Place → Option ColumnRef
  | .column ref => some ref
  | .foreign _ => none

theorem filterMap_column (refs : List ColumnRef) :
    (refs.map Place.column).filterMap Place.column? = refs := by
  rw [List.filterMap_map]
  exact List.filterMap_some

mutual

/-- The leaves of a filter are the columns at its places. -/
theorem filterMap_frontier (f : Filter) : f.frontier.filterMap Place.column? = f.leaves := by
  cases f with
  | column ref => rfl
  | value v => rfl
  | unary op e => exact filterMap_frontier e
  | binary op left right =>
    rw [frontier, leaves, List.filterMap_append, filterMap_frontier left, filterMap_frontier right]
  | logical op left right =>
    rw [frontier, leaves, List.filterMap_append, filterMap_frontier left, filterMap_frontier right]
  | isNull e negated => exact filterMap_frontier e
  | inList e items negated =>
    rw [frontier, leaves, List.filterMap_append, filterMap_frontier e, filterMap_frontierAll items]
  | between e low high negated =>
    rw [frontier, leaves, List.filterMap_append, List.filterMap_append, filterMap_frontier e,
      filterMap_frontier low, filterMap_frontier high]
  | like e pattern negated ignoreCase =>
    rw [frontier, leaves, List.filterMap_append, filterMap_frontier e, filterMap_frontier pattern]
  | cast e type => exact filterMap_frontier e
  | call name args => exact filterMap_frontierAll args
  | unsupported e => rfl

theorem filterMap_frontierAll (fs : List Filter) :
    (frontierAll fs).filterMap Place.column? = leavesAll fs := by
  cases fs with
  | nil => rfl
  | cons f fs =>
    rw [frontierAll, leavesAll, List.filterMap_append, filterMap_frontier f,
      filterMap_frontierAll fs]

end

mutual

/-- A filter is supported if there is a column at each of its places. -/
theorem all_frontier (f : Filter) :
    (f.frontier.all fun place ↦ place.column?.isSome) = f.supported := by
  cases f with
  | column ref => rfl
  | value v => rfl
  | unary op e => exact all_frontier e
  | binary op left right =>
    rw [frontier, supported, List.all_append, all_frontier left, all_frontier right]
  | logical op left right =>
    rw [frontier, supported, List.all_append, all_frontier left, all_frontier right]
  | isNull e negated => exact all_frontier e
  | inList e items negated =>
    rw [frontier, supported, List.all_append, all_frontier e, all_frontierAll items]
  | between e low high negated =>
    rw [frontier, supported, List.all_append, List.all_append, all_frontier e, all_frontier low,
      all_frontier high, Bool.and_assoc]
  | like e pattern negated ignoreCase =>
    rw [frontier, supported, List.all_append, all_frontier e, all_frontier pattern]
  | cast e type => exact all_frontier e
  | call name args => exact all_frontierAll args
  | unsupported e => rfl

theorem all_frontierAll (fs : List Filter) :
    ((frontierAll fs).all fun place ↦ place.column?.isSome) = supportedAll fs := by
  cases fs with
  | nil => rfl
  | cons f fs =>
    rw [frontierAll, supportedAll, List.all_append, all_frontier f, all_frontierAll fs]

end

/-- The places of a filter that is not supported have columns up to a first foreign expression. -/
theorem exists_foreign {f : Filter} (h : f.supported = false) :
    ∃ (before : List ColumnRef) (e : Expr) (after : List Place),
      f.frontier = before.map .column ++ .foreign e :: after := by
  have hplaces : ∀ places : List Place, (places.all fun place ↦ place.column?.isSome) = false →
      ∃ (before : List ColumnRef) (e : Expr) (after : List Place),
        places = before.map .column ++ .foreign e :: after := by
    intro places
    induction places with
    | nil => simp
    | cons place places ih =>
      cases place with
      | foreign e => exact fun _ ↦ ⟨[], e, places, rfl⟩
      | column ref =>
        intro hall
        obtain ⟨before, e, after, rfl⟩ := ih hall
        exact ⟨ref :: before, e, after, rfl⟩
  exact hplaces f.frontier ((all_frontier f).trans h)

/-- There is one first foreign expression. -/
theorem first_foreign_unique {before before' : List ColumnRef} {e e' : Expr}
    {after after' : List Place}
    (h : before.map Place.column ++ .foreign e :: after =
      before'.map Place.column ++ .foreign e' :: after') :
    before = before' ∧ e = e' ∧ after = after' := by
  induction before generalizing before' with
  | nil => cases before' <;> simp_all
  | cons ref before ih =>
    cases before' with
    | nil => simp at h
    | cons ref' before' =>
      simp only [List.map_cons, List.cons_append, List.cons.injEq, Place.column.injEq] at h
      obtain ⟨rfl, hrest⟩ := h
      obtain ⟨rfl, rfl, rfl⟩ := ih hrest
      exact ⟨rfl, rfl, rfl⟩

/-! ## Repetitions -/

/-- The first occurrences are what is left when later repetitions are erased. -/
theorem firstOccurrences_eq_eraseDups (names : List String) :
    firstOccurrences names = names.eraseDups := by
  induction names using List.reverseRec with
  | nil => rfl
  | append_singleton names name ih =>
    have hstep : firstOccurrences (names ++ [name]) =
        if (firstOccurrences names).contains name then firstOccurrences names
        else firstOccurrences names ++ [name] := List.foldl_concat _ _ _ _
    rw [hstep, List.eraseDups_append, ← ih]
    by_cases h : name ∈ names
    · simp [List.removeAll, mem_firstOccurrences, h]
    · simp [List.removeAll, List.eraseDups_cons, mem_firstOccurrences, h]

/-! ## Recorded questions -/

section Recording

variable {σ : Type} (resolve : String → StateM σ (Option String))

/-- The resolver with a record of the names that it is asked for. -/
def recording (name : String) : StateM (List String × σ) (Option String) :=
  fun (names, st) ↦
    (((resolve name).run st).1, (names ++ [name], ((resolve name).run st).2))

/-- The record does not change the answers, and it grows by the names in their order. -/
theorem found_recording (refs : List ColumnRef) (names : List String) (st : σ) :
    found (recording resolve) refs (names, st) =
      ((found resolve refs st).1,
        (names ++ refs.map ColumnRef.name, (found resolve refs st).2)) := by
  induction refs generalizing names st with
  | nil => simp [found]; rfl
  | cons ref refs ih =>
    rw [found_cons, found_cons]
    have hask : (recording resolve ref.name).run (names, st) =
      (((resolve ref.name).run st).1, (names ++ [ref.name], ((resolve ref.name).run st).2)) := rfl
    rw [hask, ih]
    simp

theorem run_map_error {ε α β : Type} {x : ExceptT ε (StateM σ) α} {g : α → β} {st st' : σ} {e : ε}
    (h : (g <$> x).run.run st = (.error e, st')) : x.run.run st = (.error e, st') := by
  have hmap : (g <$> x).run.run st = ((x.run.run st).1.map g, (x.run.run st).2) := by
    change (match (x.run.run st).1 with
      | .ok a => pure (.ok (g a))
      | .error e => pure (.error e) : StateM σ (Except ε β)).run (x.run.run st).2 = _
    cases (x.run.run st).1 <;> rfl
  rw [hmap] at h
  obtain ⟨hresult, hstate⟩ := Prod.mk.inj h
  cases hx : (x.run.run st).1 with
  | ok a => simp [hx, Except.map] at hresult
  | error e' =>
    obtain rfl : e' = e := by simpa [hx, Except.map] using hresult
    exact Prod.ext hx hstate

/-- A rewriting stops at the first foreign expression, in the state that the questions before it
leave. -/
theorem run_rewrite_of_frontier {f : Filter} {before : List ColumnRef} {e : Expr}
    {after : List Place} (h : f.frontier = before.map .column ++ .foreign e :: after) (st : σ) :
    (f.rewrite resolve).run.run st = (.error ⟨e.sql⟩, (found resolve before st).2) := by
  let ask : Place → ExceptT RewriteError (StateM σ) PUnit :=
    visit (asked resolve) fun e ↦ throw ⟨e.sql⟩
  have hplaces : ∀ (before : List ColumnRef) (st : σ),
      (forM (before.map .column ++ .foreign e :: after) ask).run.run st =
        (.error ⟨e.sql⟩, (found resolve before st).2) := by
    intro before
    induction before with
    | nil => exact fun _ ↦ rfl
    | cons ref before ih =>
      intro st
      have hcolumn : (ask (.column ref)).run.run st = (.ok ⟨⟩, ((resolve ref.name).run st).2) := rfl
      rw [List.map_cons, List.cons_append, List.forM_cons, run_bind_of_ok hcolumn, ih, found_cons]
  have hwrite : forM f.frontier ask = (fun _ ↦ ⟨⟩) <$> f.rewrite resolve := forM_frontier f
  have hrun := hplaces before st
  rw [← h, hwrite] at hrun
  exact run_map_error hrun

end Recording

/-- A rewriting succeeds exactly if the filter is supported, whatever its resolver answers.  It has
then asked for every column leaf in turn, so for the columns of the filter with their repetitions.
Otherwise it has asked for the column leaves in front of the first foreign expression, and the
error names that one. -/
theorem rewrite_asks {σ : Type} (resolve : String → StateM σ (Option String)) (f : Filter)
    (st : σ) :
    let run := (f.rewrite (recording resolve)).run.run ([], st)
    (f.rewrite resolve).run.run st = (run.1, run.2.2) ∧
      run.1.isOk = f.supported ∧
      (f.supported = true → run.2.1 = f.leaves.map ColumnRef.name ∧
        f.columns = run.2.1.eraseDups ∧
        ∀ name, f.mentions name = true ↔ name ∈ run.2.1) ∧
      (f.supported = false → ∃ (before : List ColumnRef) (e : Expr) (after : List Place),
        f.frontier = before.map .column ++ .foreign e :: after ∧
          f.leaves = before ++ after.filterMap Place.column? ∧
          run.1 = .error ⟨e.sql⟩ ∧ run.2.1 = before.map ColumnRef.name) := by
  intro run
  cases h : f.supported with
  | true =>
    have hplain : (f.rewrite resolve).run.run st =
        (.ok (f.withLeaves (found resolve f.leaves st).1).render,
          (found resolve f.leaves st).2) := run_write resolve f h st
    have hrun : run = (.ok (f.withLeaves (found resolve f.leaves st).1).render,
        (f.leaves.map ColumnRef.name, (found resolve f.leaves st).2)) := by
      refine (run_write (recording resolve) f h ([], st)).trans ?_
      rw [found_recording, List.nil_append]
    rw [hplain, hrun]
    refine ⟨rfl, rfl, fun _ ↦ ⟨rfl, ?_, fun name ↦ ?_⟩, fun hfalse ↦ Bool.noConfusion hfalse⟩
    · rw [columns, firstOccurrences_eq_eraseDups, references_eq f h]
    · rw [mentions_iff, references_eq f h]
  | false =>
    obtain ⟨before, e, after, hplaces⟩ := exists_foreign h
    have hrun : run = (.error ⟨e.sql⟩,
        (before.map ColumnRef.name, (found resolve before st).2)) := by
      refine (run_rewrite_of_frontier (recording resolve) hplaces ([], st)).trans ?_
      rw [found_recording, List.nil_append]
    have hleaves : f.leaves = before ++ after.filterMap Place.column? := by
      rw [← filterMap_frontier, hplaces, List.filterMap_append, List.filterMap_cons,
        filterMap_column]
      rfl
    rw [run_rewrite_of_frontier resolve hplaces, hrun]
    exact ⟨rfl, rfl, fun htrue ↦ Bool.noConfusion htrue,
      fun _ ↦ ⟨before, e, after, hplaces, hleaves, rfl, rfl⟩⟩

/-- A filter with a foreign expression between its columns: the columns in front of it are asked
for, one of them twice, and the column behind it is not. -/
theorem asks_up_to_foreign :
    let resolve : String → StateM Nat (Option String) := fun name ↦ fun asked ↦
      (if name = "a" then some (toString asked) else none, asked + 1)
    let position : Expr := .other [.text "POSITION(", .gap 0, .text " IN ", .gap 1, .text ")"]
      [.literal (.string .plain "x"), .column [.plain "c"]]
    let f : Filter := logical .or
      (between (column (.plain "a")) (column (.plain "b")) (column (.plain "a")) true)
      (binary .eq (unsupported position) (column (.plain "d")))
    (f.rewrite resolve).run.run 0 = (.error ⟨"POSITION('x' IN c)"⟩, 3) ∧
      ((f.rewrite (recording resolve)).run.run ([], 0)).2.1 = ["a", "b", "a"] := by
  intro resolve position f
  obtain ⟨hplain, -, -, hunsupported⟩ := rewrite_asks resolve f 0
  obtain ⟨before, e, after, hplaces, -, herror, hnames⟩ := hunsupported rfl
  have hfrontier : f.frontier =
    [.plain "a", .plain "b", .plain "a"].map .column ++
      .foreign position :: [.column (.plain "d")] := rfl
  obtain ⟨rfl, rfl, -⟩ := first_foreign_unique (hplaces.symm.trans hfrontier)
  exact ⟨by rw [hplain, herror]; rfl, hnames⟩

end Funnel.Filter
