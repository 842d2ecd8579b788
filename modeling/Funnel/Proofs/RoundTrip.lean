import Mathlib
import Funnel.Proofs.KeptGrouping

/-!
# Round Trip of Filters

A filter that was read and written is read again.  An operator that is set behind an operand never
adds weight, and it takes weight away if it does not stand on the whole of its operands; so the
filter is the same, up to the association of chains, if and only if its grouping is kept.
-/

namespace Funnel

open Sql (UnaryOp BinaryOp LogicalOp Expr Infix)

namespace Filter

/-! ## Weight behind an operator -/

def infixFactor : Infix → Nat
  | .binary op => weightFactor op
  | .logical _ => 1

theorem infixFactor_cases (op : Infix) : infixFactor op = 1 ∨ infixFactor op = 2 := by
  cases op with
  | binary op =>
    show weightFactor op = 1 ∨ weightFactor op = 2
    unfold weightFactor
    split
    · exact .inr rfl
    · exact .inl rfl
  | logical op => exact .inl rfl

theorem weight_apply (op : Infix) (left right : Expr) : (ofExpr (op.apply left right)).weight =
    infixFactor op * ((ofExpr left).weight + (ofExpr right).weight) := by
  cases op with
  | binary op => rfl
  | logical op =>
    rw [infixFactor, Nat.one_mul]
    rfl

/-- Patterns and the last operands of sums are counted once. -/
theorem exists_front_weight {fill : Expr → Expr} (h : Expr.Opening fill) {e : Expr}
    (hedge : (fill e).edge = 19 ∨ (fill e).edge = 30) :
    ∃ front, 0 < front ∧ ∀ e, (ofExpr (fill e)).weight = front + (ofExpr e).weight := by
  cases h with
  | unary op => cases op <;> simp [Expr.edge] at hedge
  | binary op left =>
    have hfactor : weightFactor op = 1 := by
      have hlevel : (Infix.binary op).level = 19 ∨ (Infix.binary op).level = 30 := hedge
      revert hlevel
      cases op <;> decide
    refine ⟨(ofExpr left).weight, weight_pos _, fun e ↦ ?_⟩
    rw [ofExpr, weight, hfactor, Nat.one_mul]
  | logical op left => cases op <;> simp [Expr.edge, Infix.level] at hedge
  | like e negated ignoreCase =>
    exact ⟨(ofExpr e).weight, weight_pos _, fun p ↦ by rw [ofExpr, weight]⟩
  | between e low negated => simp [Expr.edge] at hedge

variable {op : Infix} {left right : Expr}

/-- What a graft makes of an operand that the operator does not stand on. -/
theorem exists_weight_graft (hl : left.Grouped) (hnear : Expr.Near op left)
    (hlt : left.edge < op.level) : ∃ front last, 0 < front ∧ (ofExpr left).weight = front + last ∧
      (ofExpr (.graft op left right)).weight =
        front + infixFactor op * (last + (ofExpr right).weight) := by
  induction left using Expr.graft_induction op with
  | apply left h => exact absurd hlt (by omega)
  | fill fill e hf h _ =>
    have hedge : (fill e).edge = 19 ∨ (fill e).edge = 30 := by
      have hlevel := op.level_le
      have hmem := (fill e).edge_mem
      simp only [List.mem_cons, List.not_mem_nil, or_false] at hmem
      unfold Expr.Near at hnear
      omega
    obtain ⟨front, hpos, hfront⟩ := exists_front_weight hf hedge
    refine ⟨front, (ofExpr e).weight, hpos, hfront e, ?_⟩
    rw [Expr.graft_fill hf h, Expr.graft_of_le (Expr.le_edge_of_near hf hl hnear h), hfront,
      weight_apply]

theorem weight_graft_le (hl : left.Grouped) (hnear : Expr.Near op left) :
    (ofExpr (.graft op left right)).weight ≤
      infixFactor op * ((ofExpr left).weight + (ofExpr right).weight) := by
  by_cases hle : op.level ≤ left.edge
  · rw [Expr.graft_of_le hle, weight_apply]
  · obtain ⟨front, last, -, hleft, hgraft⟩ := exists_weight_graft hl hnear (Nat.lt_of_not_le hle)
    rw [hgraft, hleft]
    obtain hfactor | hfactor := infixFactor_cases op
    · rw [hfactor]
      omega
    · rw [hfactor]
      omega

theorem weight_graft_lt (hl : left.Grouped) (hnear : Expr.Near op left)
    (hlt : left.edge < op.level) (hfactor : infixFactor op = 2) :
    (ofExpr (.graft op left right)).weight <
      2 * ((ofExpr left).weight + (ofExpr right).weight) := by
  obtain ⟨front, last, hpos, hleft, hgraft⟩ := exists_weight_graft hl hnear hlt
  rw [hgraft, hleft, hfactor]
  omega

/-! ## Concatenations in front of sums and products -/

/-- On the left side of the expression there are sums and products only. -/
inductive Arithmetic : Expr → Prop
  | tight {e : Expr} (h : 40 < e.floor) : Arithmetic e
  | operator {op : BinaryOp} (hop : 6 ≤ operatorStrength op) {l r : Expr} (hl : Arithmetic l) :
    Arithmetic (.binary op l r)

theorem level_of_arithmetic {op : BinaryOp} (hop : 6 ≤ operatorStrength op) :
    30 ≤ (Infix.binary op).level ∧ weightFactor op = 1 := by
  revert hop
  cases op <;> decide

namespace Arithmetic

theorem loose {e : Expr} (h : Arithmetic e) : Expr.Loose (.binary .concat) e := by
  induction h with
  | tight h => exact .tight h
  | operator hop hl ih => exact .operator (.binary _) ih (Infix.level_le _)

theorem grouped_operand {op : BinaryOp} {l r : Expr} (h : (Expr.binary op l r).Grouped) :
    l.Grouped := by
  have hwhole : ((Infix.binary op).apply l r).Grouped := h
  exact (Expr.grouped_left hwhole).1

theorem floor {e : Expr} (h : Arithmetic e) : 30 ≤ e.floor := by
  induction h with
  | tight h => omega
  | operator hop hl ih => exact le_min (level_of_arithmetic hop).1 ih

/-- The operator takes the concatenation as its left operand. -/
theorem weight_attach_operator {op : BinaryOp} (hop : 6 ≤ operatorStrength op) {l r : Expr}
    (hl : Arithmetic l) (hleft : left.Grouped) (hl' : l.Grouped) (hedge : 30 ≤ left.edge)
    (h : (ofExpr (.attach (.binary .concat) left l)).weight ≤
      2 * ((ofExpr left).weight + (ofExpr l).weight)) :
    (ofExpr (.attach (.binary .concat) left (.binary op l r))).weight <
      2 * ((ofExpr left).weight + (ofExpr (.binary op l r)).weight) := by
  have hnear : Expr.Near (.binary op) (.attach (.binary .concat) left l) :=
    .inr (.inl (Expr.le_edge_attach hl.loose (by decide) hedge hl.floor))
  have hgrouped : (Expr.attach (.binary .concat) left l).Grouped := hleft.attach hl.loose hl'
  have hoperator : Expr.attach (.binary .concat) left (.binary op l r) =
      .graft (.binary op) (.attach (.binary .concat) left l) r := by
    have hlevel : (Infix.binary op).level ≤ (Infix.binary .concat).level := Infix.level_le _
    exact Expr.attach_operator hlevel left l r
  have hgraft := @weight_graft_le _ _ r hgrouped hnear
  have hfactor := (level_of_arithmetic hop).2
  have hpos := weight_pos (ofExpr r)
  rw [infixFactor, hfactor] at hgraft
  rw [hoperator, ofExpr, weight, hfactor]
  omega

theorem weight_attach_le (hright : Arithmetic right) (hl : left.Grouped) (hr : right.Grouped)
    (hedge : 30 ≤ left.edge) : (ofExpr (.attach (.binary .concat) left right)).weight ≤
      2 * ((ofExpr left).weight + (ofExpr right).weight) := by
  induction hright with
  | tight h =>
    have hlt : (Infix.binary .concat).level < _ := h
    rw [Expr.attach_of_lt hlt]
    exact weight_graft_le hl (.inr (.inl hedge))
  | operator hop harith ih =>
    have hr' := grouped_operand hr
    exact (weight_attach_operator hop harith hl hr' hedge (ih hr')).le

theorem weight_attach_lt (hright : Arithmetic right) (hl : left.Grouped) (hr : right.Grouped)
    (hedge : 30 ≤ left.edge) (hmoves : left.edge < 40 ∨ right.floor ≤ 40) :
    (ofExpr (.attach (.binary .concat) left right)).weight <
      2 * ((ofExpr left).weight + (ofExpr right).weight) := by
  cases hright with
  | tight h =>
    have hlt : (Infix.binary .concat).level < _ := h
    rw [Expr.attach_of_lt hlt]
    exact weight_graft_lt hl (.inr (.inl hedge)) (hmoves.resolve_right (by omega)) rfl
  | operator hop harith =>
    have hr' := grouped_operand hr
    exact weight_attach_operator hop harith hl hr' hedge (weight_attach_le harith hl hr' hedge)

end Arithmetic

/-! ## Weight of what is read -/

theorem arithmetic_reading {t : Filter} (h : Writable t) (hs : 6 ≤ t.strength) :
    Arithmetic t.reading := by
  induction h with
  | binary op hl hr ihl ihr =>
    have hop : 6 ≤ operatorStrength op := hs
    rw [(fits hl).reading_arithmetic (fits hr) hop]
    refine .operator hop ?_
    unfold enclosed
    split
    · exact .tight (by simp [Expr.floor])
    · exact ihl (by omega)
  | unary op h ih =>
    cases op with
    | not => exact absurd hs (show ¬ 6 ≤ 3 by decide)
    | _ => exact .tight (by simp [reading, Expr.floor])
  | logical op hl hr ihl ihr =>
    rw [strength_logical] at hs
    have hweak : leftLeast (.logical op) < 6 := by cases op <;> decide
    omega
  | isNull negated h ih => exact absurd hs (show ¬ 6 ≤ 4 by decide)
  | inList negated h hitems ih ihitems => exact absurd hs (show ¬ 6 ≤ 4 by decide)
  | between negated h hl hh ih ihl ihh => exact absurd hs (show ¬ 6 ≤ 4 by decide)
  | like negated ignoreCase h hp ih ihp => exact absurd hs (show ¬ 6 ≤ 4 by decide)
  | _ => exact .tight (by simp [reading, Expr.floor])

theorem arithmetic_enclosed {t : Filter} (h : Writable t) :
    Arithmetic (enclosed 6 t.strength t.reading) := by
  unfold enclosed
  split
  · exact .tight (by simp [Expr.floor])
  · exact arithmetic_reading h (by omega)

variable {l r : Filter}

/-- Only a concatenation can go into the operand behind it. -/
theorem joined_eq_graft {op : BinaryOp} (hop : op ≠ .concat) (hr : Writable r) :
    joined (.binary op) l r =
      .graft (.binary op) (enclosed (leftLeast (.binary op)) l.strength l.reading)
        (enclosed (rightLeast (.binary op)) r.strength r.reading) := by
  have hne : Infix.binary op ≠ .binary .concat := by simpa using hop
  have hfloor := ((fits hr).meets.enclosed (rightLeast (.binary op))).floor
  have hlt := level_lt_floorOf hne (by simp)
  rw [joined, Expr.attach_of_lt (hlt.trans_le hfloor)]

/-- An operator never adds weight. -/
theorem weight_joined_le (hl : Writable l) (hr : Writable r) (op : BinaryOp) :
    (ofExpr (joined (.binary op) l r)).weight ≤
      weightFactor op * ((ofExpr l.reading).weight + (ofExpr r.reading).weight) := by
  have hgl := (fits hl).grouped_enclosed (leftLeast (.binary op))
  have hgr := (fits hr).grouped_enclosed (rightLeast (.binary op))
  have hnear := (fits hl).near (.binary op)
  by_cases hconcat : op = .concat
  · subst hconcat
    have hedge := ((fits hl).meets.enclosed 5).edge
    have hweight := (arithmetic_enclosed hr).weight_attach_le hgl hgr hedge
    rwa [ofExpr_enclosed, ofExpr_enclosed] at hweight
  · have hweight := @weight_graft_le _ _ (enclosed (rightLeast (.binary op)) r.strength r.reading)
      hgl hnear
    rw [ofExpr_enclosed, ofExpr_enclosed] at hweight
    rwa [joined_eq_graft hconcat hr]

/-- Behind a pattern there is a comparison, behind a sum a concatenation. -/
theorem edge_of_not_takesLeft (hl : Writable l) {op : BinaryOp} (hop : takesLeft op l = false) :
    (enclosed (operatorStrength op) l.strength l.reading).edge < (Infix.binary op).level ∧
      weightFactor op = 2 := by
  cases hl with
  | like negated ignoreCase h hp =>
    have hcomparison : op.isComparison = true := by simpa [takesLeft] using hop
    revert hcomparison
    cases op <;> first
      | exact fun _ ↦ ⟨Nat.lt_succ_self 19, rfl⟩
      | exact fun h ↦ absurd h (by decide)
  | binary inner hl hr =>
    have hsum : op = .concat ∧ (inner = .plus ∨ inner = .minus) := by
      simpa [takesLeft, or_iff_not_imp_left] using hop
    obtain ⟨rfl, hsum⟩ := hsum
    have hinner : operatorStrength inner = 6 ∧ (Infix.binary inner).level = 30 := by
      rcases hsum with rfl | rfl <;> decide
    refine ⟨?_, rfl⟩
    have hstrong : ¬ operatorStrength inner < operatorStrength .concat := by
      rw [hinner.1]
      decide
    have hedge : (Infix.binary inner).level < (Infix.binary .concat).level := by
      rw [hinner.2]
      decide
    rw [(fits hl).reading_arithmetic (fits hr) hinner.1.ge, enclosed, strength, if_neg hstrong]
    exact hedge
  | _ => simp [takesLeft] at hop

/-- Behind a concatenation there is a sum or a product. -/
theorem floor_of_not_takesRight (hr : Writable r) {op : BinaryOp} (hop : takesRight op r = false) :
    op = .concat ∧ (enclosed 6 r.strength r.reading).floor ≤ 40 := by
  cases hr with
  | binary inner hl hr =>
    have harith : op = .concat ∧ 6 ≤ operatorStrength inner := by simpa [takesRight] using hop
    refine ⟨harith.1, ?_⟩
    have hstrong : ¬ operatorStrength inner < 6 := Nat.not_lt.2 harith.2
    rw [(fits hl).reading_arithmetic (fits hr) harith.2, enclosed, strength, if_neg hstrong]
    exact (min_le_left _ _).trans (Infix.level_le (.binary inner))
  | _ => simp [takesRight] at hop

/-- An operator that does not take its operands as a whole takes weight away. -/
theorem weight_joined_lt (hl : Writable l) (hr : Writable r) {op : BinaryOp}
    (hop : takesLeft op l = false ∨ takesRight op r = false) :
    (ofExpr (joined (.binary op) l r)).weight <
      weightFactor op * ((ofExpr l.reading).weight + (ofExpr r.reading).weight) := by
  have hgl := (fits hl).grouped_enclosed (leftLeast (.binary op))
  have hgr := (fits hr).grouped_enclosed (rightLeast (.binary op))
  have hnear := (fits hl).near (.binary op)
  by_cases hconcat : op = .concat
  · subst hconcat
    have hedge := ((fits hl).meets.enclosed 5).edge
    have hmoves : (enclosed 5 l.strength l.reading).edge < 40 ∨
        (enclosed 6 r.strength r.reading).floor ≤ 40 :=
      hop.imp (fun h ↦ (@edge_of_not_takesLeft _ hl .concat h).1) fun h ↦
        (floor_of_not_takesRight hr h).2
    have hweight := (arithmetic_enclosed hr).weight_attach_lt hgl hgr hedge hmoves
    rwa [ofExpr_enclosed, ofExpr_enclosed] at hweight
  · have hleft : takesLeft op l = false :=
      hop.resolve_right fun h ↦ hconcat (floor_of_not_takesRight hr h).1
    obtain ⟨hlt, hfactor⟩ := edge_of_not_takesLeft hl hleft
    have hweight := @weight_graft_lt _ _ (enclosed (rightLeast (.binary op)) r.strength r.reading)
      hgl hnear hlt hfactor
    rw [ofExpr_enclosed, ofExpr_enclosed] at hweight
    rwa [joined_eq_graft hconcat hr, hfactor]

/-! ## Weight of a whole filter -/

theorem weight_readingAll_le {ts : List Filter}
    (h : ∀ t ∈ ts, (ofExpr t.reading).weight ≤ t.weight) :
    weightAll (ofExprs (readingAll ts)) ≤ weightAll ts := by
  induction ts with
  | nil => exact le_rfl
  | cons t ts ih =>
    rw [readingAll, ofExprs, weightAll, weightAll]
    exact Nat.add_le_add (h t List.mem_cons_self)
      (ih fun t' ht' ↦ h t' (List.mem_cons_of_mem _ ht'))

/-- A filter that was written and read weighs no more than it did. -/
theorem weight_reading_le {t : Filter} (h : Writable t) : (ofExpr t.reading).weight ≤ t.weight := by
  induction h with
  | column hsql hname => exact le_rfl
  | number n =>
    rw [reading, Value.reading_number]
    exact le_rfl
  | string text => exact le_rfl
  | boolean b => exact le_rfl
  | null => exact le_rfl
  | unary op h ih =>
    rw [reading, ofExpr, ofExpr_signOperand, ofExpr_enclosed]
    exact ih
  | binary op hl hr ihl ihr =>
    rename_i l r
    rw [reading_binary]
    calc (ofExpr (joined (.binary op) l r)).weight
        ≤ weightFactor op * ((ofExpr l.reading).weight + (ofExpr r.reading).weight) :=
          weight_joined_le hl hr op
      _ ≤ weightFactor op * (l.weight + r.weight) :=
          Nat.mul_le_mul_left _ (Nat.add_le_add ihl ihr)
  | logical op hl hr ihl ihr =>
    rename_i l r
    rw [reading_logical]
    calc (ofExpr (joined (.logical op) l r)).weight
        = (ofExpr l.reading).weight + (ofExpr r.reading).weight :=
          (sameChains_joined hl hr op).weight_eq.symm
      _ ≤ l.weight + r.weight := Nat.add_le_add ihl ihr
  | isNull negated h ih =>
    rw [reading, ofExpr, ofExpr_enclosed]
    exact ih
  | inList negated h hitems ih ihitems =>
    rw [reading, ofExpr, ofExpr_enclosed]
    exact Nat.add_le_add ih (weight_readingAll_le ihitems)
  | between negated h hl hh ih ihl ihh =>
    rw [reading, ofExpr, ofExpr_enclosed, ofExpr_enclosed, ofExpr_enclosed]
    exact Nat.add_le_add (Nat.add_le_add ih ihl) ihh
  | like negated ignoreCase h hp ih ihp =>
    rw [reading, ofExpr, ofExpr_enclosed, ofExpr_enclosed]
    exact Nat.add_le_add ih ihp
  | cast h htype ih => exact ih
  | call hname hargs ih => exact Nat.add_le_add_right (weight_readingAll_le ih) 1

theorem keepsGroupingAll_of_weight {ts : List Filter} (hw : ∀ t ∈ ts, Writable t)
    (hle : weightAll ts ≤ weightAll (ofExprs (readingAll ts)))
    (h : ∀ t ∈ ts, t.weight ≤ (ofExpr t.reading).weight → t.keepsGrouping = true) :
    keepsGroupingAll ts = true := by
  induction ts with
  | nil => rfl
  | cons t ts ih =>
    rw [readingAll, ofExprs, weightAll, weightAll] at hle
    have hhead := weight_reading_le (hw t List.mem_cons_self)
    have htail := weight_readingAll_le fun t' ht' ↦
      weight_reading_le (hw t' (List.mem_cons_of_mem _ ht'))
    rw [keepsGroupingAll, Bool.and_eq_true]
    exact ⟨h t List.mem_cons_self (by omega), ih (fun t' ht' ↦ hw t' (List.mem_cons_of_mem _ ht'))
      (by omega) fun t' ht' ↦ h t' (List.mem_cons_of_mem _ ht')⟩

/-- A filter that loses no weight keeps its grouping. -/
theorem keepsGrouping_of_weight {t : Filter} (h : Writable t)
    (hle : t.weight ≤ (ofExpr t.reading).weight) : t.keepsGrouping = true := by
  induction h with
  | column hsql hname => rfl
  | number n => rfl
  | string text => rfl
  | boolean b => rfl
  | null => rfl
  | unary op h ih =>
    rw [reading, ofExpr, ofExpr_signOperand, ofExpr_enclosed] at hle
    exact ih hle
  | binary op hl hr ihl ihr =>
    rename_i l r
    rw [reading_binary, weight] at hle
    have hpos := weightFactor_pos op
    have hwl := weight_reading_le hl
    have hwr := weight_reading_le hr
    have hsum : l.weight + r.weight ≤ (ofExpr l.reading).weight + (ofExpr r.reading).weight := by
      apply Nat.le_of_mul_le_mul_left _ hpos
      calc weightFactor op * (l.weight + r.weight)
          ≤ (ofExpr (joined (.binary op) l r)).weight := hle
        _ ≤ weightFactor op * ((ofExpr l.reading).weight + (ofExpr r.reading).weight) :=
            weight_joined_le hl hr op
    have htakes : takesLeft op l = true ∧ takesRight op r = true := by
      by_contra hnot
      have hmoves : takesLeft op l = false ∨ takesRight op r = false := by
        rwa [not_and_or, Bool.not_eq_true, Bool.not_eq_true] at hnot
      have hlt : l.weight + r.weight <
          (ofExpr l.reading).weight + (ofExpr r.reading).weight := by
        apply Nat.lt_of_mul_lt_mul_left
        calc weightFactor op * (l.weight + r.weight)
            ≤ (ofExpr (joined (.binary op) l r)).weight := hle
          _ < weightFactor op * ((ofExpr l.reading).weight + (ofExpr r.reading).weight) :=
              weight_joined_lt hl hr hmoves
      omega
    rw [keepsGrouping, htakes.1, htakes.2, ihl (by omega), ihr (by omega)]
    rfl
  | logical op hl hr ihl ihr =>
    rw [reading_logical, ← (sameChains_joined hl hr op).weight_eq, weight, weight] at hle
    have hwl := weight_reading_le hl
    have hwr := weight_reading_le hr
    rw [keepsGrouping, ihl (by omega), ihr (by omega)]
    rfl
  | isNull negated h ih =>
    rw [reading, ofExpr, ofExpr_enclosed] at hle
    exact ih hle
  | inList negated h hitems ih ihitems =>
    rename_i e first others
    rw [reading, ofExpr, ofExpr_enclosed] at hle
    have hsum : e.weight + weightAll (first :: others) ≤
        (ofExpr e.reading).weight + weightAll (ofExprs (readingAll (first :: others))) := hle
    have hw := weight_reading_le h
    have hall := weight_readingAll_le fun item hitem ↦ weight_reading_le (hitems item hitem)
    rw [keepsGrouping, ih (by omega), keepsGroupingAll_of_weight hitems (by omega) ihitems]
    rfl
  | between negated h hl hh ih ihl ihh =>
    rw [reading, ofExpr, ofExpr_enclosed, ofExpr_enclosed, ofExpr_enclosed, weight, weight] at hle
    have hw := weight_reading_le h
    have hwl := weight_reading_le hl
    have hwh := weight_reading_le hh
    rw [keepsGrouping, ih (by omega), ihl (by omega), ihh (by omega)]
    rfl
  | like negated ignoreCase h hp ih ihp =>
    rw [reading, ofExpr, ofExpr_enclosed, ofExpr_enclosed, weight, weight] at hle
    have hw := weight_reading_le h
    have hwp := weight_reading_le hp
    rw [keepsGrouping, ih (by omega), ihp (by omega)]
    rfl
  | cast h htype ih => exact ih hle
  | call hname hargs ih =>
    exact keepsGroupingAll_of_weight hargs (Nat.le_of_add_le_add_right hle) ih

/-! ## Round trip -/

/-- A filter without quotes is written and read again without an error, and the result is the same
filter, up to the association of chains, if and only if all its operators take their operands as a
whole. -/
theorem parse_render_iff {s : String} {t : Filter} (hparse : parse s = .ok t)
    (hsupported : t.supported = true) (hwords : t.PlainWords) (hheight : t.height ≤ 15) :
    ∃ t', parse t.render = .ok t' ∧ (SameChains t t' ↔ t.keepsGrouping = true) := by
  have hwritable := writable_of_parse hparse hsupported hwords
  have hdepth : t.reading.depth < Sql.Grammar.maxDepth := by
    calc t.reading.depth ≤ 3 * t.height := depth_reading_le hwritable
      _ ≤ 3 * 15 := Nat.mul_le_mul_left 3 hheight
      _ < Sql.Grammar.maxDepth := by decide
  refine ⟨ofExpr t.reading, parse_render hwritable hdepth, fun hsame ↦ ?_, fun hkeeps ↦ ?_⟩
  · exact keepsGrouping_of_weight hwritable hsame.weight_eq.le
  · exact sameChains_of_keepsGrouping hwritable hkeeps

/-- A comparison behind a pattern goes into the pattern. -/
theorem comparison_behind_pattern : ∃ t t', parse "(a LIKE b) = c" = .ok t ∧
    t.render = "a LIKE b = c" ∧ parse t.render = .ok t' ∧ ¬ SameChains t t' := by
  have hparse : parse "(a LIKE b) = c" =
      .ok (.binary .eq (.like (.column (.plain "a")) (.column (.plain "b")) false false)
        (.column (.plain "c"))) := by decide +kernel
  obtain ⟨t', hread, hiff⟩ := parse_render_iff hparse rfl
    ⟨⟨⟨rfl, by decide⟩, ⟨rfl, by decide⟩⟩, ⟨rfl, by decide⟩⟩ (by decide)
  exact ⟨_, t', hparse, rfl, hread, fun hsame ↦ absurd (hiff.1 hsame) (by decide)⟩

end Filter

end Funnel
