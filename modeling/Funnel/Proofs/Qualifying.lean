import Funnel.Proofs.Spans

/-!
# Filters with Qualified Columns

A rewriting asks its resolver about the columns at the leaves of a filter, from left to right, and
every answer may depend on the ones before.  Where the filter is supported, the rewriting is the
text of the filter with each reference behind the table that was named for it
(`rewrite_eq_render_qualifiedBy`).
-/

namespace Funnel.Filter

open Sql (Expr)

/-! ## Runs of a resolver -/

section Resolver

variable {σ : Type} (resolve : String → StateM σ (Option String))

/-- A reference behind the table that was named for it. -/
def behind (qualifier : Option String) (ref : ColumnRef) : ColumnRef :=
  ⟨ref.name, qualified qualifier ref⟩

/-- The references behind the tables that the resolver names for them, one after the other, and
the state that it reaches. -/
def found (refs : List ColumnRef) (st : σ) : List ColumnRef × σ :=
  StateT.run (refs.mapM fun ref : ColumnRef ↦ do return behind (← resolve ref.name) ref) st

theorem found_append (as bs : List ColumnRef) (st : σ) :
    found resolve (as ++ bs) st =
      ((found resolve as st).1 ++ (found resolve bs (found resolve as st).2).1,
        (found resolve bs (found resolve as st).2).2) := by
  rw [found, List.mapM_append]
  rfl

theorem found_cons (ref : ColumnRef) (refs : List ColumnRef) (st : σ) :
    found resolve (ref :: refs) st =
      (behind ((resolve ref.name).run st).1 ref ::
        (found resolve refs ((resolve ref.name).run st).2).1,
        (found resolve refs ((resolve ref.name).run st).2).2) := by
  rw [found, List.mapM_cons]
  rfl

/-- What is found for references is each of them behind the answer for its name. -/
theorem found_eq (refs : List ColumnRef) (st : σ) :
    found resolve refs st =
      (List.zipWith behind (((refs.map ColumnRef.name).mapM resolve).run st).1 refs,
        (((refs.map ColumnRef.name).mapM resolve).run st).2) := by
  induction refs generalizing st with
  | nil => rfl
  | cons ref refs ih =>
    rw [found_cons, ih, List.map_cons, List.mapM_cons]
    rfl

/-- The resolver answers once for each name. -/
theorem length_answers (names : List String) (st : σ) :
    ((names.mapM resolve).run st).1.length = names.length := by
  induction names generalizing st with
  | nil => rfl
  | cons name names ih =>
    rw [List.mapM_cons]
    exact congrArg (· + 1) (ih _)

theorem length_found (refs : List ColumnRef) (st : σ) :
    (found resolve refs st).1.length = refs.length := by
  rw [found_eq, List.length_zipWith, length_answers, List.length_map, Nat.min_self]

/-! ## The run of a rewriting -/

/-- What the rest of a rewriting starts from. -/
theorem run_bind_of_ok {ε α β : Type} {x : ExceptT ε (StateM σ) α} {st st' : σ} {a : α}
    (h : x.run.run st = (.ok a, st')) (next : α → ExceptT ε (StateM σ) β) :
    (x >>= next).run.run st = (next a).run.run st' := by
  have hbind : (x >>= next).run.run st =
      (match (x.run.run st).1 with
        | .ok a => (next a).run
        | .error e => pure (.error e)).run (x.run.run st).2 := rfl
  rw [hbind, h]

/-- A column, behind the table that the resolver names for it. -/
def asked (ref : ColumnRef) : ExceptT RewriteError (StateM σ) String := do
  return qualified (← resolve ref.name) ref

variable {foreign : Expr → ExceptT RewriteError (StateM σ) String}

mutual

/-- A supported filter is written with the references that are found for its leaves. -/
theorem run_write (f : Filter) (h : f.supported = true) (st : σ) :
    (write (asked resolve) foreign f).run.run st =
      (.ok (f.withLeaves (found resolve f.leaves st).1).render,
        (found resolve f.leaves st).2) := by
  -- The state is general: a later part is asked about in the state that the earlier ones leave.
  cases f with
  | column ref => rfl
  | value v => rfl
  | unary op e =>
    rw [write, run_bind_of_ok (run_write e h st), leaves, withLeaves, render_unary,
      strength_unary_congr op (e.withLeaves _) e, strength_withLeaves]
    rfl
  | binary op left right =>
    rw [supported, Bool.and_eq_true] at h
    rw [write, run_bind_of_ok (run_write left h.1 st), run_bind_of_ok (run_write right h.2 _),
      leaves, found_append, withLeaves_binary (length_found resolve _ _), render_binary,
      strength_withLeaves, strength_withLeaves]
    rfl
  | logical op left right =>
    rw [supported, Bool.and_eq_true] at h
    rw [write, run_bind_of_ok (run_write left h.1 st), run_bind_of_ok (run_write right h.2 _),
      leaves, found_append, withLeaves_logical (length_found resolve _ _), render_logical,
      strength_logical_congr op (left.withLeaves _) _ left right, strength_withLeaves,
      strength_withLeaves]
    rfl
  | isNull e negated =>
    rw [write, run_bind_of_ok (run_write e h st), leaves, withLeaves, render_isNull,
      strength_withLeaves]
    rfl
  | inList e items negated =>
    rw [supported, Bool.and_eq_true] at h
    rw [write, run_bind_of_ok (run_write e h.1 st), run_bind_of_ok (run_writeAll items h.2 _),
      leaves, found_append, withLeaves_inList (length_found resolve _ _), render_inList,
      strength_withLeaves]
    rfl
  | between e low high negated =>
    rw [supported, Bool.and_eq_true, Bool.and_eq_true] at h
    rw [write, run_bind_of_ok (run_write e h.1.1 st), run_bind_of_ok (run_write low h.1.2 _),
      run_bind_of_ok (run_write high h.2 _), leaves, found_append, found_append,
      withLeaves_between (length_found resolve _ _) (length_found resolve _ _), render_between,
      strength_withLeaves, strength_withLeaves, strength_withLeaves]
    rfl
  | like e pattern negated ignoreCase =>
    rw [supported, Bool.and_eq_true] at h
    rw [write, run_bind_of_ok (run_write e h.1 st), run_bind_of_ok (run_write pattern h.2 _),
      leaves, found_append, withLeaves_like (length_found resolve _ _), render_like,
      strength_withLeaves, strength_withLeaves]
    rfl
  | cast e type =>
    rw [write, run_bind_of_ok (run_write e h st), leaves, withLeaves, render_cast]
    rfl
  | call name args =>
    rw [write, run_bind_of_ok (run_writeAll args h st), leaves, withLeaves, render_call]
    rfl
  | unsupported e => cases h

theorem run_writeAll (fs : List Filter) (h : supportedAll fs = true) (st : σ) :
    (writeAll (asked resolve) foreign fs).run.run st =
      (.ok ((withLeavesAll (found resolve (leavesAll fs) st).1 fs).map render),
        (found resolve (leavesAll fs) st).2) := by
  cases fs with
  | nil => rfl
  | cons f fs =>
    rw [supportedAll, Bool.and_eq_true] at h
    rw [writeAll, run_bind_of_ok (run_write f h.1 st), run_bind_of_ok (run_writeAll fs h.2 _),
      leavesAll, found_append, withLeavesAll_cons (length_found resolve _ _)]
    rfl

end

/-- With no table named for them, references stay as they are. -/
theorem zipWith_behind_of_none {answers : List (Option String)} {refs : List ColumnRef}
    (hlength : answers.length = refs.length) (h : ∀ q ∈ answers, q = none) :
    List.zipWith behind answers refs = refs := by
  induction refs generalizing answers with
  | nil => exact List.zipWith_nil_right
  | cons ref refs ih =>
    cases answers with
    | nil => simp at hlength
    | cons q answers =>
      rw [List.zipWith_cons_cons, ih (Nat.succ.inj hlength) fun q hq ↦ h q (.tail _ hq),
        h q List.mem_cons_self]
      rfl

end Resolver

/-- A filter with its references behind the tables that were named for them, the first answer for
the leftmost leaf. -/
def qualifiedBy (answers : List (Option String)) (f : Filter) : Filter :=
  f.withLeaves (List.zipWith behind answers f.leaves)

/-- The rewriting of a supported filter is the text of the filter with the answers of the resolver
in front of its columns.  That filter differs from the given one at its leaves alone, so their
texts have the same spans but for the columns and the operands of signs: only the parentheses that
a sign may need around its operand can come or go. -/
theorem rewrite_eq_render_qualifiedBy {σ : Type} (resolve : String → StateM σ (Option String))
    {f : Filter} (h : f.supported = true) (st : σ) :
    let run := (f.references.mapM resolve).run st
    let f' := f.qualifiedBy run.1
    (f.rewrite resolve).run.run st = (.ok f'.render, run.2) ∧
      (run.1.length = f.leaves.length ∧ f'.leaves = List.zipWith behind run.1 f.leaves ∧
        f'.withLeaves f.leaves = f) ∧
      ((∀ q ∈ run.1, q = none) → (f.rewrite resolve).run.run st = (.ok f.render, run.2)) ∧
      (textOf f.spans = f.render ∧ textOf f'.spans = f'.render ∧
        f'.spans.map Span.blank = f.spans.map Span.blank) := by
  intro run f'
  have hrun : found resolve f.leaves st = (List.zipWith behind run.1 f.leaves, run.2) := by
    rw [found_eq, ← references_eq f h]
  have hwrite : (f.rewrite resolve).run.run st = (.ok f'.render, run.2) := by
    refine (run_write resolve f h st).trans ?_
    rw [hrun]
    rfl
  have hanswers : run.1.length = f.leaves.length := by
    rw [length_answers, references_eq f h, List.length_map]
  have hlength : (List.zipWith behind run.1 f.leaves).length = f.leaves.length := by
    rw [List.length_zipWith, hanswers, Nat.min_self]
  have hback : f'.withLeaves f.leaves = f :=
    calc
      f'.withLeaves f.leaves = f.withLeaves f.leaves := withLeaves_withLeaves f hlength rfl
      _ = f := withLeaves_leaves f
  have hunnamed (hnone : ∀ q ∈ run.1, q = none) : f' = f :=
    calc
      f' = f.withLeaves f.leaves :=
        congrArg (withLeaves · f) (zipWith_behind_of_none hanswers hnone)
      _ = f := withLeaves_leaves f
  refine ⟨hwrite, ⟨hanswers, leaves_withLeaves f hlength, hback⟩, fun hnone ↦ ?_,
    textOf_spans f, textOf_spans f', map_blank_withLeaves _ f⟩
  rw [hwrite, hunnamed hnone]

/-- The first table is named for the first column, another one for the later columns, and none for
`b`. -/
theorem rewrite_signs_and_list :
    let resolve : String → StateM Nat (Option String) := fun name asked ↦
      (if name = "b" then none else some (if asked = 0 then "first" else "later"), asked + 1)
    let f : Filter := logical .and
      (binary .eq (column (.plain "a")) (unary .minus (unary .minus (column (.plain "b")))))
      (inList (column (.plain "a")) [value (.number "1"), column (.plain "c")] false)
    f.supported = true ∧ (f.rewrite resolve).run.run 0 =
      (.ok "first.a = -(-b) AND later.a IN (1, later.c)", 4) := by
  intro resolve f
  have hsupported : f.supported = true := rfl
  refine ⟨hsupported, (rewrite_eq_render_qualifiedBy resolve hsupported 0).1.trans ?_⟩
  refine Prod.ext (congrArg Except.ok ?_) ?_
  · decide +kernel
  · decide +kernel

end Funnel.Filter
