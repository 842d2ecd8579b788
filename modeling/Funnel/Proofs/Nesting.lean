import Mathlib
import Funnel.Proofs.Grouping

/-!
# Nesting of Expressions

How deep an expression nests.  The reader descends one level for every operand but the first one of
an operator, and for every parenthesis.  Putting expressions together with `Expr.attach` makes them
little deeper, because an operator moves past one other operator at most.
-/

namespace Funnel.Sql.Expr

/-! ## Depth -/

mutual

/-- How many levels the reader descends from an expression.  The left operand of an operator is read
on the level of the whole. -/
def depth : Expr → Nat
  | nested e => e.depth + 1
  | unary _ e => e.depth + 1
  | binary _ left right => max left.depth (right.depth + 1)
  | logical _ left right => max left.depth (right.depth + 1)
  | isNull e _ => e.depth
  | inList e first others _ => max e.depth (max first.depth (depthAll others) + 1)
  | between e low high _ => max e.depth (max low.depth high.depth + 1)
  | like e pattern _ _ => max e.depth (pattern.depth + 1)
  | cast _ e _ => e.depth + 1
  | call _ args => depthAll args + 1
  | column _ => 0
  | literal _ => 0
  | subquery _ _ => 0
  | other _ _ => 0
  | abridged _ _ _ => 0

def depthAll : List Expr → Nat
  | [] => 0
  | e :: es => max e.depth (depthAll es)

end

theorem depth_le_depthAll {e : Expr} {es : List Expr} (h : e ∈ es) : e.depth ≤ depthAll es := by
  induction es with
  | nil => simp at h
  | cons e' es ih =>
    rw [depthAll]
    rcases List.mem_cons.1 h with rfl | h
    · exact le_max_left _ _
    · exact (ih h).trans (le_max_right _ _)

theorem depthAll_le {es : List Expr} {bound : Nat} (h : ∀ e ∈ es, e.depth ≤ bound) :
    depthAll es ≤ bound := by
  induction es with
  | nil => exact Nat.zero_le _
  | cons e es ih =>
    rw [depthAll]
    exact max_le (h e List.mem_cons_self) (ih fun e' he' ↦ h e' (List.mem_cons_of_mem _ he'))

@[simp]
theorem depth_apply (op : Infix) (left right : Expr) :
    (op.apply left right).depth = max left.depth (right.depth + 1) := by
  cases op <;> rw [Infix.apply, Infix.operator, Grammar.Operator.apply, depth]

theorem Opening.exists_depth {fill : Expr → Expr} (h : Opening fill) :
    ∃ front, ∀ e, (fill e).depth = max front (e.depth + 1) := by
  cases h with
  | unary op => exact ⟨0, fun e ↦ by simp [depth]⟩
  | binary op left => exact ⟨left.depth, fun e ↦ by rw [depth]⟩
  | logical op left => exact ⟨left.depth, fun e ↦ by rw [depth]⟩
  | like e negated ignoreCase => exact ⟨e.depth, fun p ↦ by rw [depth]⟩
  | between e low negated =>
    refine ⟨max e.depth (low.depth + 1), fun high ↦ ?_⟩
    rw [depth]
    omega

/-! ## Depth of what is put together -/

theorem edge_mem (e : Expr) : e.edge ∈ [5, 10, 15, 19, 20, 30, 40, 50] := by
  cases e with
  | unary op e => cases op <;> simp [edge]
  | binary op l r => cases op <;> simp [edge, Infix.level, BinaryOp.symbol, Grammar.symbolLevel]
  | logical op l r => cases op <;> simp [edge, Infix.level]
  | _ => simp [edge]

/-- Above the level of a negation, what binds more tightly on its left side also does on its right
side. -/
theorem lt_edge_of_lt_floor {e : Expr} {level : Nat} (h : level < e.floor) (hnot : 16 ≤ level)
    (hlevel : level < 40) : level < e.edge := by
  cases e with
  | unary op e => cases op <;> simp only [floor, edge] at * <;> omega
  | _ =>
    simp only [floor, edge] at *
    omega

/-- An operator behind the expression goes to its last operand, if not to the whole. -/
def Near (op : Infix) (e : Expr) : Prop :=
  op.level ≤ e.edge ∨ 30 ≤ e.edge ∨ 19 ≤ e.edge ∧ op.level ≤ 20

variable {op : Infix} {left right : Expr}

theorem le_edge_of_near {fill : Expr → Expr} {e : Expr} (hf : Opening fill)
    (hg : Grouped (fill e)) (hnear : Near op (fill e)) (hlt : (fill e).edge < op.level) :
    op.level ≤ e.edge := by
  have hlevel := op.level_le
  have hedge : 19 ≤ (fill e).edge ∧ (30 ≤ (fill e).edge ∨ op.level ≤ 20) := by
    obtain h | h | h := hnear <;> omega
  have hmore : (fill e).edge < e.edge :=
    lt_edge_of_lt_floor (hf.lt_floor hg).2 (by omega) (by omega)
  have hmem := e.edge_mem
  simp only [List.mem_cons, List.not_mem_nil, or_false] at hmem
  omega

theorem depth_graft_le (hl : Grouped left) (hnear : Near op left) :
    (graft op left right).depth ≤ max left.depth (right.depth + 2) := by
  induction left using graft_induction op with
  | apply left h =>
    rw [graft_of_le h, depth_apply]
    omega
  | fill fill e hf h _ =>
    obtain ⟨front, hdepth⟩ := hf.exists_depth
    rw [graft_fill hf h, graft_of_le (le_edge_of_near hf hl hnear h), hdepth, hdepth, depth_apply]
    omega

/-- Operators on the left side of the second expression keep near to what is in front of them. -/
theorem depth_attach_le {level : Nat} (hloose : Loose op right) (hl : Grouped left)
    (hr : Grouped right) (hop : level ≤ op.level) (hedge : level ≤ left.edge)
    (hfloor : level ≤ right.floor) (hlevel : op.level ≤ level ∨ 30 ≤ level) :
    (attach op left right).depth ≤ max left.depth (right.depth + 2) := by
  induction hloose with
  | tight h =>
    rw [attach_of_lt h]
    refine depth_graft_le hl ?_
    unfold Near
    omega
  | operator inner hloose h ih =>
    rename_i l r
    have hg := (grouped_left hr).1
    rw [floor_apply] at hfloor
    have hrest := ih hg (by omega)
    have hnear : Near inner (attach op left l) := by
      have := le_edge_attach hloose hop hedge (show level ≤ l.floor by omega)
      unfold Near
      omega
    rw [attach_operator h]
    refine (depth_graft_le (hl.attach hloose hg) hnear).trans ?_
    rw [depth_apply]
    omega

end Funnel.Sql.Expr
