import Mathlib
import Funnel.Proofs.Chains
import Funnel.Proofs.Spelling

/-!
# Filters That Are Read As They Were Written

The writer and the reader do not agree on the strength of two forms.  The pattern of LIKE is read
with all operators that bind more tightly than LIKE, a comparison among them, and a concatenation
binds as tightly as a product.  `Filter.keepsGrouping` says that neither makes a difference; such a
filter is read as it was written, up to the association of chains (`sameChains_of_keepsGrouping`).
-/

namespace Funnel

open Sql (UnaryOp BinaryOp LogicalOp Expr Infix)

namespace Filter

/-! ## Operands -/

/-- An operator takes the whole of the operand in front of it: it is no comparison behind a pattern
and no concatenation behind a sum. -/
def takesLeft (op : BinaryOp) : Filter → Bool
  | like _ _ _ _ => !op.isComparison
  | binary inner _ _ => !(op == .concat && (inner == .plus || inner == .minus))
  | _ => true

/-- An operator takes the whole of the operand behind it: it is no concatenation in front of a sum
or a product. -/
def takesRight (op : BinaryOp) : Filter → Bool
  | binary inner _ _ => !(op == .concat && decide (6 ≤ operatorStrength inner))
  | _ => true

mutual

/-- All operators of a filter take their operands as a whole. -/
def keepsGrouping : Filter → Bool
  | column _ => true
  | value _ => true
  | unary _ e => e.keepsGrouping
  | binary op left right =>
    takesLeft op left && takesRight op right && left.keepsGrouping && right.keepsGrouping
  | logical _ left right => left.keepsGrouping && right.keepsGrouping
  | isNull e _ => e.keepsGrouping
  | inList e items _ => e.keepsGrouping && keepsGroupingAll items
  | between e low high _ => e.keepsGrouping && low.keepsGrouping && high.keepsGrouping
  | like e pattern _ _ => e.keepsGrouping && pattern.keepsGrouping
  | cast e _ => e.keepsGrouping
  | call _ args => keepsGroupingAll args
  | unsupported _ => true

def keepsGroupingAll : List Filter → Bool
  | [] => true
  | e :: es => e.keepsGrouping && keepsGroupingAll es

end

theorem keepsGroupingAll_iff {ts : List Filter} :
    keepsGroupingAll ts = true ↔ ∀ t ∈ ts, t.keepsGrouping = true := by
  induction ts with
  | nil => simp [keepsGroupingAll]
  | cons t ts ih => simp [keepsGroupingAll, ih]

/-! ## Operands that are read whole -/

theorem ofExprs_eq_map (es : List Expr) : ofExprs es = es.map ofExpr := by
  induction es with
  | nil => rfl
  | cons e es ih => rw [ofExprs, ih, List.map_cons]

theorem ofExpr_enclosed (least s : Nat) (e : Expr) : ofExpr (enclosed least s e) = ofExpr e := by
  unfold enclosed
  split
  · rw [ofExpr]
  · rfl

theorem ofExpr_signOperand (op : UnaryOp) (e : Expr) : ofExpr (signOperand op e) = ofExpr e := by
  obtain heq | ⟨-, heq⟩ := signOperand_cases op e
  · rw [heq]
  · rw [heq, ofExpr]

theorem reading_apply {op : BinaryOp} {left right : Filter}
    (hedge : (Infix.binary op).level ≤
      (enclosed (operatorStrength op) left.strength left.reading).edge)
    (hfloor : (Infix.binary op).level <
      (enclosed (operatorStrength op + 1) right.strength right.reading).floor) :
    (binary op left right).reading =
      .binary op (enclosed (operatorStrength op) left.strength left.reading)
        (enclosed (operatorStrength op + 1) right.strength right.reading) := by
  rw [reading, Expr.attach_of_le hedge hfloor]
  rfl

theorem level_le_edge_enclosed {op : Infix} {t : Filter} {least : Nat}
    (h : least ≤ t.strength → op.level ≤ t.reading.edge) :
    op.level ≤ (enclosed least t.strength t.reading).edge := by
  unfold enclosed
  split
  · exact op.level_le.trans (Nat.le_add_right 40 10)
  · exact h (by omega)

theorem level_lt_floor_enclosed {op : Infix} {t : Filter} {least : Nat}
    (h : least ≤ t.strength → op.level < t.reading.floor) :
    op.level < (enclosed least t.strength t.reading).floor := by
  unfold enclosed
  split
  · exact op.level_le.trans_lt (Nat.lt_add_of_pos_right (Nat.succ_pos 9))
  · exact h (by omega)

/-- Behind a concatenation, what is no sum and no product binds as tightly as a sign. -/
theorem strength_of_takesRight {t : Filter} (hop : takesRight .concat t = true)
    (hs : 6 ≤ t.strength) : 8 ≤ t.strength := by
  cases t with
  | binary op left right =>
    have hweak : operatorStrength op < 6 := by simpa [takesRight] using hop
    exact absurd hs (Nat.not_le_of_lt hweak)
  | unary op e =>
    cases op with
    | not => exact absurd hs (show ¬ 6 ≤ 3 by decide)
    | _ => exact Nat.le_refl 8
  | logical op left right => cases op <;> simp [strength] at hs
  | isNull e negated => simp [strength] at hs
  | inList e items negated => simp [strength] at hs
  | between e low high negated => simp [strength] at hs
  | like e pattern negated ignoreCase => simp [strength] at hs
  | unsupported e => simp [strength] at hs
  | _ => simp [strength]

theorem level_lt_floor {op : BinaryOp} {t : Filter} (h : Writable t)
    (hop : takesRight op t = true) (hs : operatorStrength op + 1 ≤ t.strength) :
    (Infix.binary op).level < t.reading.floor := by
  have hfloor : floorOf t.strength ≤ t.reading.floor := (fits h).meets.floor
  by_cases hconcat : op = .concat
  · subst hconcat
    calc (Infix.binary .concat).level < floorOf 8 := by decide
      _ ≤ floorOf t.strength := floorOf_mono (strength_of_takesRight hop hs)
      _ ≤ t.reading.floor := hfloor
  · have hne : Infix.binary op ≠ .binary .concat := by simpa using hconcat
    calc (Infix.binary op).level < floorOf (operatorStrength op + 1) :=
          level_lt_floorOf hne (by simp)
      _ ≤ floorOf t.strength := floorOf_mono hs
      _ ≤ t.reading.floor := hfloor

/-- An operator of a weaker strength is read at a weaker level, but for a concatenation behind a
sum. -/
theorem level_le_of_takesLeft {op inner : BinaryOp} {left right : Filter}
    (hop : takesLeft op (binary inner left right) = true)
    (hs : operatorStrength op ≤ operatorStrength inner) :
    (Infix.binary op).level ≤ (Infix.binary inner).level := by
  have hsum : (!(op == .concat && (inner == .plus || inner == .minus))) = true := hop
  revert hsum hs
  cases op <;> cases inner <;> decide

theorem level_of_strength {op : BinaryOp} (h : operatorStrength op ≤ 4) :
    op.isComparison = true ∧ (Infix.binary op).level = 20 := by
  revert h
  cases op <;> decide

theorem level_le_edge {op : BinaryOp} {t : Filter} (h : Writable t)
    (hkeeps : t.keepsGrouping = true) (hop : takesLeft op t = true)
    (hs : operatorStrength op ≤ t.strength) : (Infix.binary op).level ≤ t.reading.edge := by
  have hpos : 4 ≤ operatorStrength op := by cases op <;> decide
  induction h generalizing op with
  | binary op' hl hr ihl ihr =>
    rw [keepsGrouping, Bool.and_eq_true, Bool.and_eq_true, Bool.and_eq_true] at hkeeps
    obtain ⟨⟨⟨htakes, htakes'⟩, hkl⟩, hkr⟩ := hkeeps
    have hpos' : 4 ≤ operatorStrength op' := by cases op' <;> decide
    have hedge := level_le_edge_enclosed fun hs ↦ ihl hkl htakes hs hpos'
    have hfloor := level_lt_floor_enclosed fun hs ↦ level_lt_floor hr htakes' hs
    rw [reading_apply hedge hfloor]
    exact level_le_of_takesLeft hop hs
  | unary op' h ih =>
    cases op' with
    | not => exact absurd (hpos.trans hs) (show ¬ 4 ≤ 3 by decide)
    | _ => exact (Infix.binary op).level_le
  | logical op' hl hr ihl ihr =>
    rw [strength_logical] at hs
    have hweak : leftLeast (.logical op') < 4 := by cases op' <;> decide
    exact absurd (hpos.trans hs) (by omega)
  | like negated ignoreCase h hp ih ihp =>
    have hcomparison := (level_of_strength hs).1
    simp [takesLeft, hcomparison] at hop
  | between negated h hl hh ih ihl ihh => exact (level_of_strength hs).2.le
  | _ => exact (Infix.binary op).level_le.trans (Nat.le_add_right 40 10)

/-! ## A grouping that is kept -/

theorem intercalate_nameParts (name : String) :
    ".".intercalate ((nameParts name).map Sql.Ident.text) = name := by
  rw [← String.toList_inj, String.toList_intercalate, nameParts, List.map_map, List.map_map]
  have hparts :
      (String.toList ∘ Sql.Ident.text) ∘ (fun part ↦ .plain (String.ofList part)) = id := by
    funext part
    simp only [Function.comp_apply, Sql.Ident.plain_text, String.toList_ofList, id_eq]
  rw [hparts, List.map_id]
  exact List.intercalate_splitOn '.'

/-- A plain name is written as its parts with periods between them. -/
theorem dottedSql_nameParts {name : String} (h : IsPlainName name) :
    Sql.Ident.dottedSql (nameParts name) = name := by
  have hsql : (nameParts name).map Sql.Ident.sql = (nameParts name).map Sql.Ident.text := by
    rw [nameParts, List.map_map, List.map_map]
    apply List.map_congr_left
    intro part hpart
    have hbare : Sql.Lexer.isBare (String.ofList part).toList = true := by
      rw [String.toList_ofList]
      exact Sql.Lexer.isBare_of_isWord (h part hpart).1
    rw [Function.comp_apply, Function.comp_apply, Sql.Ident.sql, Sql.Ident.plain_quote hbare]
  rw [Sql.Ident.dottedSql, hsql, intercalate_nameParts]

theorem eq_logical_of_level {inner : Infix} {op : LogicalOp}
    (h : inner.level = (Infix.logical op).level) : inner = .logical op := by
  revert h
  cases inner with
  | binary inner => cases inner <;> cases op <;> decide
  | logical inner => cases inner <;> cases op <;> decide

/-- The operators of a chain only change their association. -/
theorem sameChains_attach {op : LogicalOp} {left right : Expr}
    (hloose : Expr.Loose (.logical op) right) (hedge : (Infix.logical op).level ≤ left.edge)
    (hfloor : (Infix.logical op).level ≤ right.floor) :
    SameChains (logical op (ofExpr left) (ofExpr right))
      (ofExpr (.attach (.logical op) left right)) := by
  induction hloose with
  | tight h =>
    rw [Expr.attach_of_le hedge h]
    exact .refl _
  | operator inner hl h ih =>
    rename_i l r
    rw [Expr.floor_apply] at hfloor
    have hle : (Infix.logical op).level ≤ (Expr.attach (.logical op) left l).edge :=
      Expr.le_edge_attach hl le_rfl hedge (by omega)
    have hsame : inner = .logical op := eq_logical_of_level (by omega)
    rw [Expr.attach_operator h, Expr.graft_of_le (h.trans hle), hsame]
    exact (SameChains.assoc op _ _ _).symm.trans (.logical op (ih (by omega)) (.refl _))

theorem sameChains_joined {left right : Filter} (hl : Writable left) (hr : Writable right)
    (op : LogicalOp) : SameChains (logical op (ofExpr left.reading) (ofExpr right.reading))
      (ofExpr (joined (.logical op) left right)) := by
  have hlevel : (Infix.logical op).level ≤ edgeOf (leftLeast (.logical op)) ∧
      (Infix.logical op).level ≤ floorOf (rightLeast (.logical op)) := by
    cases op <;> decide
  have hedge := ((fits hl).meets.enclosed (leftLeast (.logical op))).edge
  have hfloor := ((fits hr).meets.enclosed (rightLeast (.logical op))).floor
  have hchain := sameChains_attach ((fits hr).loose_right (.logical op)) (hlevel.1.trans hedge)
    (hlevel.2.trans hfloor)
  rwa [ofExpr_enclosed, ofExpr_enclosed] at hchain

/-! ## Chains as they are read -/

/-- A chain of this operator without parentheses inside: its operators stand on the left side of the
expression, and in front of them is an expression that is none. -/
inductive Chain (op : LogicalOp) : Expr → Prop
  | first {e : Expr} (hfloor : (Infix.logical op).level < e.floor)
    (hend : (ofExpr e).isChain op = false) : Chain op e
  | more {l : Expr} (h : Chain op l) (r : Expr) : Chain op (.logical op l r)

namespace Chain

variable {op : LogicalOp} {left right : Expr}

theorem attach_logical (op : LogicalOp) (left l r : Expr) :
    Expr.attach (.logical op) left (.logical op l r) =
      Expr.graft (.logical op) (Expr.attach (.logical op) left l) r :=
  Expr.attach_operator (Nat.le_refl (Infix.logical op).level) left l r

/-- A chain behind an expression is one chain with it. -/
theorem exists_attach (h : Chain op right) (hedge : (Infix.logical op).level ≤ left.edge) :
    ∃ l r, Expr.attach (.logical op) left right = .logical op l r := by
  induction h with
  | first hfloor hend => exact ⟨left, _, Expr.attach_of_le hedge hfloor⟩
  | more h r ih =>
    obtain ⟨l', r', heq⟩ := ih
    refine ⟨_, r, (attach_logical op left _ r).trans (Expr.graft_of_le ?_ r)⟩
    rw [heq]
    exact Nat.le_refl (Infix.logical op).level

theorem attach_more {l : Expr} (h : Chain op l) (hedge : (Infix.logical op).level ≤ left.edge)
    (r : Expr) : Expr.attach (.logical op) left (.logical op l r) =
      .logical op (Expr.attach (.logical op) left l) r := by
  obtain ⟨l', r', heq⟩ := h.exists_attach hedge
  refine (attach_logical op left l r).trans (Expr.graft_of_le ?_ r)
  rw [heq]
  exact Nat.le_refl (Infix.logical op).level

theorem ofExpr_attach (h : Chain op right) (hedge : (Infix.logical op).level ≤ left.edge) :
    ofExpr (Expr.attach (.logical op) left right) = chained op (ofExpr left) (ofExpr right) := by
  induction h with
  | first hfloor hend =>
    rw [Expr.attach_of_le hedge hfloor, chained_of_not_chain hend]
    rfl
  | more h r ih =>
    rw [h.attach_more hedge, ofExpr, ofExpr, ih, chained_logical]

theorem attach (hl : Chain op left) (h : Chain op right)
    (hedge : (Infix.logical op).level ≤ left.edge) :
    Chain op (Expr.attach (.logical op) left right) := by
  induction h with
  | first hfloor hend =>
    rw [Expr.attach_of_le hedge hfloor]
    exact .more hl _
  | more h r ih =>
    rw [h.attach_more hedge]
    exact .more ih r

/-- Operators that go to the left do not make a chain deeper. -/
theorem depth_attach_le (h : Chain op right) (hedge : (Infix.logical op).level ≤ left.edge) :
    (Expr.attach (.logical op) left right).depth ≤ max left.depth (right.depth + 1) := by
  induction h with
  | first hfloor hend => rw [Expr.attach_of_le hedge hfloor, Expr.depth_apply]
  | more h r ih =>
    rw [h.attach_more hedge, Expr.depth, Expr.depth]
    omega

end Chain

/-! ## Filters that are read with their chains to the left -/

/-- What is no chain of an operator and is not weaker than one is stronger. -/
theorem lt_strength_of_not_chain {t : Filter} (h : Writable t) {op : LogicalOp}
    (hend : t.isChain op = false) (hs : leftLeast (.logical op) ≤ t.strength) :
    leftLeast (.logical op) < t.strength := by
  have hleast : leftLeast (.logical op) ≤ 2 := by cases op <;> decide
  cases h with
  | logical inner hl hr =>
    rw [strength_logical] at *
    revert hend hs
    cases op <;> cases inner <;> simp [isChain, leftLeast]
  | unary inner h => cases inner <;> simp only [strength] <;> omega
  | binary inner hl hr => cases inner <;> simp only [strength, operatorStrength] <;> omega
  | _ => simp only [strength]; omega

theorem chain_of_not_chain {t : Filter} (h : Writable t) (heq : ofExpr t.reading = t.leftChains)
    {op : LogicalOp} (hend : t.isChain op = false) :
    Chain op (enclosed (leftLeast (.logical op)) t.strength t.reading) := by
  refine .first (level_lt_floor_enclosed fun hs ↦ ?_) ?_
  · have hlevel : (Infix.logical op).level < floorOf (leftLeast (.logical op) + 1) := by
      cases op <;> decide
    calc (Infix.logical op).level < floorOf (leftLeast (.logical op) + 1) := hlevel
      _ ≤ floorOf t.strength := floorOf_mono (lt_strength_of_not_chain h hend hs)
      _ ≤ t.reading.floor := (fits h).meets.floor
  · rw [ofExpr_enclosed, heq, isChain_leftChains, hend]

theorem level_le_edge_logical {t : Filter} (h : Writable t) (op : LogicalOp) :
    (Infix.logical op).level ≤
      (enclosed (leftLeast (.logical op)) t.strength t.reading).edge := by
  have hlevel : (Infix.logical op).level ≤ edgeOf (leftLeast (.logical op)) := by
    cases op <;> decide
  exact hlevel.trans ((fits h).meets.enclosed _).edge

theorem reading_binary_of_keepsGrouping {op : BinaryOp} {left right : Filter} (hl : Writable left)
    (hr : Writable right) (hkeeps : (binary op left right).keepsGrouping = true) :
    (binary op left right).reading =
      .binary op (enclosed (operatorStrength op) left.strength left.reading)
        (enclosed (operatorStrength op + 1) right.strength right.reading) := by
  rw [keepsGrouping, Bool.and_eq_true, Bool.and_eq_true, Bool.and_eq_true] at hkeeps
  obtain ⟨⟨⟨htakes, htakes'⟩, hkl⟩, -⟩ := hkeeps
  exact reading_apply (level_le_edge_enclosed fun hs ↦ level_le_edge hl hkl htakes hs)
    (level_lt_floor_enclosed fun hs ↦ level_lt_floor hr htakes' hs)

theorem ofExprs_readingAll {ts : List Filter} (hkeeps : keepsGroupingAll ts = true)
    (h : ∀ t ∈ ts, t.keepsGrouping = true → ofExpr t.reading = t.leftChains) :
    ofExprs (readingAll ts) = leftChainsAll ts := by
  rw [keepsGroupingAll_iff] at hkeeps
  rw [readingAll_eq_map, ofExprs_eq_map, leftChainsAll_eq_map, List.map_map]
  exact List.map_congr_left fun t ht ↦ h t ht (hkeeps t ht)

/-- A chain of filters is read as a chain. -/
theorem chain_logical {left right : Filter} (hl : Writable left) {op : LogicalOp}
    (hleft : Chain op (enclosed (leftLeast (.logical op)) left.strength left.reading))
    (hright : Chain op (enclosed (leftLeast (.logical op)) right.strength right.reading)) :
    ofExpr (logical op left right).reading =
        chained op (ofExpr left.reading) (ofExpr right.reading) ∧
      Chain op (logical op left right).reading := by
  have hedge := level_le_edge_logical hl op
  rw [reading_logical, joined, rightLeast]
  refine ⟨?_, hleft.attach hright hedge⟩
  rw [hright.ofExpr_attach hedge, ofExpr_enclosed, ofExpr_enclosed]

/-- A filter that keeps its grouping is read with its chains to the left.  What it is read as is a
link of a chain, or a chain itself. -/
theorem ofExpr_reading_and_chain {t : Filter} (h : Writable t) (hkeeps : t.keepsGrouping = true) :
    ofExpr t.reading = t.leftChains ∧
      ∀ op, Chain op (enclosed (leftLeast (.logical op)) t.strength t.reading) := by
  -- What is no chain is a link of a chain as soon as it is known how it is read.
  have hlink {t : Filter} (h : Writable t) (hend : ∀ op, t.isChain op = false)
      (heq : ofExpr t.reading = t.leftChains) : ofExpr t.reading = t.leftChains ∧
        ∀ op, Chain op (enclosed (leftLeast (.logical op)) t.strength t.reading) :=
    ⟨heq, fun op ↦ chain_of_not_chain h heq (hend op)⟩
  induction h with
  | column hsql hname =>
    rename_i ref
    refine hlink (.column hsql hname) (fun _ ↦ rfl) ?_
    have href : ColumnRef.ofParts (nameParts ref.name) = ref := by
      rw [ColumnRef.ofParts, dottedSql_nameParts hname, Sql.Ident.dottedName, intercalate_nameParts]
      exact congrArg (ColumnRef.mk ref.name) hsql.symm
    rw [reading, ofExpr, href, leftChains]
  | number n =>
    refine hlink (.number n) (fun _ ↦ rfl) ?_
    rw [reading, Value.reading_number]
    rfl
  | string text => exact hlink (.string text) (fun _ ↦ rfl) rfl
  | boolean b => exact hlink (.boolean b) (fun _ ↦ rfl) rfl
  | null => exact hlink .null (fun _ ↦ rfl) rfl
  | unary op h ih =>
    refine hlink (.unary op h) (fun _ ↦ rfl) ?_
    rw [reading, ofExpr, ofExpr_signOperand, ofExpr_enclosed, (ih hkeeps).1, leftChains]
  | binary op hl hr ihl ihr =>
    refine hlink (.binary op hl hr) (fun _ ↦ rfl) ?_
    rw [reading_binary_of_keepsGrouping hl hr hkeeps, ofExpr, ofExpr_enclosed, ofExpr_enclosed,
      leftChains]
    rw [keepsGrouping, Bool.and_eq_true, Bool.and_eq_true] at hkeeps
    rw [(ihl hkeeps.1.2).1, (ihr hkeeps.2).1]
  | logical op hl hr ihl ihr =>
    rename_i left right
    rw [keepsGrouping, Bool.and_eq_true] at hkeeps
    obtain ⟨heql, hchainl⟩ := ihl hkeeps.1
    obtain ⟨heqr, hchainr⟩ := ihr hkeeps.2
    obtain ⟨heq, hchain⟩ := chain_logical hl (hchainl op) (hchainr op)
    rw [heql, heqr, ← leftChains] at heq
    refine ⟨heq, fun op' ↦ ?_⟩
    by_cases hop : op = op'
    · subst hop
      rw [strength_logical, enclosed, if_neg (Nat.lt_irrefl _)]
      exact hchain
    · exact chain_of_not_chain (.logical op hl hr) heq (by simpa [isChain] using hop)
  | isNull negated h ih =>
    refine hlink (.isNull negated h) (fun _ ↦ rfl) ?_
    rw [reading, ofExpr, ofExpr_enclosed, (ih hkeeps).1, leftChains]
  | inList negated h hitems ih ihitems =>
    rename_i e first others
    refine hlink (.inList negated h hitems) (fun _ ↦ rfl) ?_
    rw [keepsGrouping, Bool.and_eq_true] at hkeeps
    have hall := ofExprs_readingAll hkeeps.2 fun t ht hkeeps ↦ (ihitems t ht hkeeps).1
    rw [readingAll, ofExprs] at hall
    rw [reading, ofExpr, ofExpr_enclosed, (ih hkeeps.1).1, hall, leftChains]
  | between negated h hl hh ih ihl ihh =>
    refine hlink (.between negated h hl hh) (fun _ ↦ rfl) ?_
    rw [keepsGrouping, Bool.and_eq_true, Bool.and_eq_true] at hkeeps
    rw [reading, ofExpr, ofExpr_enclosed, ofExpr_enclosed, ofExpr_enclosed, (ih hkeeps.1.1).1,
      (ihl hkeeps.1.2).1, (ihh hkeeps.2).1, leftChains]
  | like negated ignoreCase h hp ih ihp =>
    refine hlink (.like negated ignoreCase h hp) (fun _ ↦ rfl) ?_
    rw [keepsGrouping, Bool.and_eq_true] at hkeeps
    rw [reading, ofExpr, ofExpr_enclosed, ofExpr_enclosed, (ih hkeeps.1).1, (ihp hkeeps.2).1,
      leftChains]
  | cast h htype ih =>
    refine hlink (.cast h htype) (fun _ ↦ rfl) ?_
    rw [reading, ofExpr, (readsBack_wordType htype).1, (ih hkeeps).1, leftChains]
  | call hname hargs ih =>
    refine hlink (.call hname hargs) (fun _ ↦ rfl) ?_
    rw [reading, ofExpr, dottedSql_nameParts hname,
      ofExprs_readingAll hkeeps fun t ht hkeeps ↦ (ih t ht hkeeps).1, leftChains]

/-- A filter that keeps its grouping is read as it was written. -/
theorem sameChains_of_keepsGrouping {t : Filter} (h : Writable t)
    (hkeeps : t.keepsGrouping = true) : SameChains t (ofExpr t.reading) := by
  rw [(ofExpr_reading_and_chain h hkeeps).1]
  exact sameChains_leftChains t

end Filter

end Funnel
