import Mathlib
import Funnel.Proofs.KeptGrouping

/-!
# Reading Back What Was Built

A filter need not come from a text.  If its names and numbers can be written, and it has neither
of the forms that the writer and the reader group differently, its text is read as the filter with
every AND chain and every OR chain associated to the left (`parse_render_eq_leftChains`).  Chains
may be of any length on the left: what counts against the depth that the reader allows is `load`,
the number of steps into a filter that are not steps to a first operand.
-/

namespace Funnel

open Sql (UnaryOp BinaryOp LogicalOp Expr Numeral Infix)

namespace Filter

/-! ## Load -/

/-- Parentheses around an operand that is too weak for its place. -/
def guards (least strength : Nat) : Nat := if strength < least then 1 else 0

/-- Parentheses between two signs. -/
def signGuards (op : UnaryOp) (operand : String) : Nat :=
  if op ≠ .not ∧ startsWithSign operand then 1 else 0

mutual

/-- The most steps on a way from the root to a leaf: a step to an operand that is not the first one
of an operator or a test counts, and so does a pair of parentheses. -/
def load : Filter → Nat
  | column _ => 0
  | value _ => 0
  | unary op e =>
    let least := strength (.unary op e)
    e.load + guards least e.strength + signGuards op (guarded least e.strength e.render) + 1
  | binary op left right =>
    max (left.load + guards (operatorStrength op) left.strength)
      (right.load + guards (operatorStrength op + 1) right.strength + 1)
  | logical op left right =>
    let least := strength (.logical op left right)
    max (left.load + guards least left.strength) (right.load + guards least right.strength + 1)
  | isNull e _ => e.load + guards operandStrength e.strength
  | inList e items _ => max (e.load + guards operandStrength e.strength) (loadAll items)
  | between e low high _ =>
    max (e.load + guards operandStrength e.strength)
      (max (low.load + guards operandStrength low.strength + 1)
        (high.load + guards operandStrength high.strength + 1))
  | like e pattern _ _ =>
    max (e.load + guards operandStrength e.strength)
      (pattern.load + guards operandStrength pattern.strength + 1)
  | cast e _ => e.load + 1
  | call _ args => loadAll args
  | unsupported _ => 0

def loadAll : List Filter → Nat
  | [] => 0
  | e :: es => max (e.load + 1) (loadAll es)

end

/-! ## Depth -/

@[simp]
theorem depth_enclosed (least s : Nat) (e : Expr) :
    (enclosed least s e).depth = e.depth + guards least s := by
  unfold enclosed guards
  split
  · rw [Expr.depth]
  · rfl

theorem depth_signOperand (op : UnaryOp) {e : Filter} (h : Writable e) :
    (signOperand op (enclosed (strength (.unary op e)) e.strength e.reading)).depth =
      (enclosed (strength (.unary op e)) e.strength e.reading).depth +
        signGuards op (guarded (strength (.unary op e)) e.strength e.render) := by
  by_cases hop : op = .not
  · subst hop
    rw [signOperand_not]
    rfl
  · rw [strength_sign hop, signOperand_enclosed hop h, signGuards]
    by_cases hsign : startsWithSign (guarded 8 e.strength e.render) = true
    · rw [if_pos hsign, if_pos ⟨hop, hsign⟩, Expr.depth]
    · rw [if_neg hsign, if_neg fun hboth ↦ hsign hboth.2]
      rfl

theorem depthAll_readingAll_le_loadAll {ts : List Filter}
    (h : ∀ t ∈ ts, t.reading.depth ≤ t.load + 1) :
    Expr.depthAll (readingAll ts) ≤ loadAll ts := by
  induction ts with
  | nil => exact Nat.le_refl 0
  | cons t ts ih =>
    rw [readingAll, Expr.depthAll, loadAll]
    exact max_le_max (h t List.mem_cons_self) (ih fun t' ht' ↦ h t' (List.mem_cons_of_mem t ht'))

/-- A filter that keeps its grouping nests little deeper than its load when it is read. -/
theorem depth_reading_le_load {t : Filter} (h : Writable t) (hkeeps : t.keepsGrouping = true) :
    t.reading.depth ≤ t.load + 1 := by
  induction h with
  | column hsql hname => simp [reading, Expr.depth]
  | number n => simp [reading, Expr.depth]
  | string text => simp [reading, Expr.depth]
  | boolean b => simp [reading, Expr.depth]
  | null => simp [reading, Expr.depth]
  | unary op h ih =>
    have hdepth := ih hkeeps
    rw [reading, Expr.depth, load, depth_signOperand op h, depth_enclosed]
    omega
  | binary op hl hr ihl ihr =>
    rw [reading_binary_of_keepsGrouping hl hr hkeeps, Expr.depth, load, depth_enclosed,
      depth_enclosed]
    rw [keepsGrouping, Bool.and_eq_true, Bool.and_eq_true] at hkeeps
    have hdepth := ihl hkeeps.1.2
    have hdepth' := ihr hkeeps.2
    omega
  | logical op hl hr ihl ihr =>
    rename_i left right
    rw [keepsGrouping, Bool.and_eq_true] at hkeeps
    have hdepth := ihl hkeeps.1
    have hdepth' := ihr hkeeps.2
    have hchain := ((ofExpr_reading_and_chain hr hkeeps.2).2 op).depth_attach_le
      (level_le_edge_logical hl op)
    rw [depth_enclosed, depth_enclosed] at hchain
    rw [reading_logical, load, strength_logical, joined, rightLeast]
    omega
  | isNull negated h ih =>
    have hdepth := ih hkeeps
    rw [reading, Expr.depth, load, depth_enclosed]
    omega
  | inList negated h hitems ih ihitems =>
    rename_i e first others
    rw [keepsGrouping, Bool.and_eq_true, keepsGroupingAll_iff] at hkeeps
    have hdepth := ih hkeeps.1
    have hall := depthAll_readingAll_le_loadAll fun t ht ↦ ihitems t ht (hkeeps.2 t ht)
    rw [readingAll, Expr.depthAll] at hall
    rw [reading, Expr.depth, load, depth_enclosed]
    omega
  | between negated h hl hh ih ihl ihh =>
    rw [keepsGrouping, Bool.and_eq_true, Bool.and_eq_true] at hkeeps
    have hdepth := ih hkeeps.1.1
    have hdepth' := ihl hkeeps.1.2
    have hdepth'' := ihh hkeeps.2
    rw [reading, Expr.depth, load, depth_enclosed, depth_enclosed, depth_enclosed]
    omega
  | like negated ignoreCase h hp ih ihp =>
    rw [keepsGrouping, Bool.and_eq_true] at hkeeps
    have hdepth := ih hkeeps.1
    have hdepth' := ihp hkeeps.2
    rw [reading, Expr.depth, load, depth_enclosed, depth_enclosed]
    omega
  | cast h htype ih =>
    have hdepth := ih hkeeps
    rw [reading, Expr.depth, load]
    omega
  | call hname hargs ih =>
    have hall := depthAll_readingAll_le_loadAll fun t ht ↦
      ih t ht (keepsGroupingAll_iff.1 hkeeps t ht)
    rw [reading, Expr.depth, load]
    omega

/-! ## Filters that were built -/

/-- The filter is a test against a pattern. -/
def isLike : Filter → Bool
  | like _ _ _ _ => true
  | _ => false

mutual

/-- The filter can be written, and the text groups as the filter does: names and types are plain
words, numbers are numerals and lists have members, there is no concatenation, and no comparison has
a test against a pattern in front of it. -/
def Legible : Filter → Prop
  | column ref => ref.sql = ref.name ∧ IsPlainName ref.name
  | value (.number digits) => Numeral.IsSpelling digits.toList
  | value _ => True
  | unary _ e => e.Legible
  | binary op left right =>
    op ≠ .concat ∧ (op.isComparison && left.isLike) = false ∧ left.Legible ∧ right.Legible
  | logical _ left right => left.Legible ∧ right.Legible
  | isNull e _ => e.Legible
  | inList e items _ => items ≠ [] ∧ e.Legible ∧ LegibleAll items
  | between e low high _ => e.Legible ∧ low.Legible ∧ high.Legible
  | like e pattern _ _ => e.Legible ∧ pattern.Legible
  | cast e type => e.Legible ∧ IsTypeWord type
  | call name args => IsPlainName name ∧ LegibleAll args
  | unsupported _ => False

def LegibleAll : List Filter → Prop
  | [] => True
  | e :: es => e.Legible ∧ LegibleAll es

end

mutual

theorem writable_of_legible (t : Filter) (h : t.Legible) : Writable t := by
  cases t with
  | column ref => exact .column h.1 h.2
  | value v =>
    cases v with
    | number digits => exact .number ⟨digits, h⟩
    | string text => exact .string text
    | boolean b => exact .boolean b
    | null => exact .null
  | unary op e => exact .unary op (writable_of_legible e h)
  | binary op left right =>
    exact .binary op (writable_of_legible left h.2.2.1) (writable_of_legible right h.2.2.2)
  | logical op left right =>
    exact .logical op (writable_of_legible left h.1) (writable_of_legible right h.2)
  | isNull e negated => exact .isNull negated (writable_of_legible e h)
  | inList e items negated =>
    cases items with
    | nil => exact absurd rfl h.1
    | cons first others =>
      exact .inList negated (writable_of_legible e h.2.1) (writable_of_legibleAll _ h.2.2)
  | between e low high negated =>
    exact .between negated (writable_of_legible e h.1) (writable_of_legible low h.2.1)
      (writable_of_legible high h.2.2)
  | like e pattern negated ignoreCase =>
    exact .like negated ignoreCase (writable_of_legible e h.1) (writable_of_legible pattern h.2)
  | cast e type => exact .cast (writable_of_legible e h.1) h.2
  | call name args => exact .call h.1 (writable_of_legibleAll args h.2)
  | unsupported e => exact h.elim

theorem writable_of_legibleAll (ts : List Filter) (h : LegibleAll ts) : ∀ t ∈ ts, Writable t := by
  cases ts with
  | nil => simp
  | cons first others =>
    intro t ht
    rcases List.mem_cons.1 ht with heq | ht
    · rw [heq]
      exact writable_of_legible first h.1
    · exact writable_of_legibleAll others h.2 t ht

end

/-- Without concatenations and comparisons behind patterns operators take their operands whole. -/
theorem takes_of_not_concat {op : BinaryOp} (hop : op ≠ .concat) {left : Filter}
    (hleft : (op.isComparison && left.isLike) = false) (right : Filter) :
    takesLeft op left = true ∧ takesRight op right = true := by
  constructor
  · cases left with
    | like e pattern negated ignoreCase => simpa [takesLeft, isLike] using hleft
    | binary inner l r => simp [takesLeft, hop]
    | _ => rfl
  · cases right with
    | binary inner l r => simp [takesRight, hop]
    | _ => rfl

mutual

theorem keepsGrouping_of_legible (t : Filter) (h : t.Legible) : t.keepsGrouping = true := by
  cases t with
  | column ref => rfl
  | value v => rfl
  | unary op e => exact keepsGrouping_of_legible e h
  | binary op left right =>
    obtain ⟨hop, hleft, hl, hr⟩ := h
    obtain ⟨htakes, htakes'⟩ := takes_of_not_concat hop hleft right
    rw [keepsGrouping, htakes, htakes', keepsGrouping_of_legible left hl,
      keepsGrouping_of_legible right hr]
    rfl
  | logical op left right =>
    rw [keepsGrouping, keepsGrouping_of_legible left h.1, keepsGrouping_of_legible right h.2]
    rfl
  | isNull e negated => exact keepsGrouping_of_legible e h
  | inList e items negated =>
    rw [keepsGrouping, keepsGrouping_of_legible e h.2.1, keepsGroupingAll_of_legible items h.2.2]
    rfl
  | between e low high negated =>
    rw [keepsGrouping, keepsGrouping_of_legible e h.1, keepsGrouping_of_legible low h.2.1,
      keepsGrouping_of_legible high h.2.2]
    rfl
  | like e pattern negated ignoreCase =>
    rw [keepsGrouping, keepsGrouping_of_legible e h.1, keepsGrouping_of_legible pattern h.2]
    rfl
  | cast e type => exact keepsGrouping_of_legible e h.1
  | call name args => exact keepsGroupingAll_of_legible args h.2
  | unsupported e => rfl

theorem keepsGroupingAll_of_legible (ts : List Filter) (h : LegibleAll ts) :
    keepsGroupingAll ts = true := by
  cases ts with
  | nil => rfl
  | cons t ts =>
    rw [keepsGroupingAll, keepsGrouping_of_legible t h.1, keepsGroupingAll_of_legible ts h.2]
    rfl

end

/-- A legible filter is read from its text with every chain associated to the left, and with nothing
else changed. -/
theorem parse_render_eq_leftChains {t : Filter} (h : t.Legible) (hload : t.load ≤ 40) :
    parse t.render = .ok t.leftChains ∧ SameChains t t.leftChains ∧
      t.leftChains.LeftChained := by
  have hwritable := writable_of_legible t h
  have hkeeps := keepsGrouping_of_legible t h
  have hread := (ofExpr_reading_and_chain hwritable hkeeps).1
  have hdepth : t.reading.depth < Sql.Grammar.maxDepth := by
    calc t.reading.depth ≤ t.load + 1 := depth_reading_le_load hwritable hkeeps
      _ ≤ 40 + 1 := Nat.succ_le_succ hload
      _ < Sql.Grammar.maxDepth := by decide
  have hparse := parse_render hwritable hdepth
  rw [hread] at hparse
  exact ⟨hparse, sameChains_leftChains t, leftChained_leftChains t⟩

/-- A conjunction and a disjunction that were built to the right, with parentheses for the weaker
one and between two signs. -/
theorem parse_render_of_right_chains :
    let sign : Filter := .unary .minus (.unary .minus (.value (.number "1")))
    let members : Filter :=
      .inList sign [.value (.number "2"), .call "f" [.column (.plain "c")]] false
    let pattern : Filter :=
      .like (.cast (.column (.plain "d")) "INT") (.value (.string "it's")) false false
    let t : Filter := .logical .and (.column (.plain "a"))
      (.logical .and (.logical .or (.column (.plain "b")) (.logical .or members pattern))
        (.column (.plain "e")))
    t.Legible ∧ t.load ≤ 40 ∧
      t.render =
        "a AND (b OR -(-1) IN (2, f(c)) OR cast(d AS INT) LIKE 'it''s') AND e" ∧
      parse t.render = .ok (.logical .and
        (.logical .and (.column (.plain "a"))
          (.logical .or (.logical .or (.column (.plain "b")) members) pattern))
        (.column (.plain "e"))) := by
  intro sign members pattern t
  have hone : Sql.Numeral.IsSpelling "1".toList :=
    Sql.Numeral.isSpelling_of_allDigits (by decide) (by simp [Sql.Numeral.AllDigits])
  have htwo : Sql.Numeral.IsSpelling "2".toList :=
    Sql.Numeral.isSpelling_of_allDigits (by decide) (by simp [Sql.Numeral.AllDigits])
  have hlegible : t.Legible :=
    ⟨⟨rfl, by decide⟩, ⟨⟨rfl, by decide⟩, ⟨by simp, hone, htwo,
      ⟨by decide, ⟨rfl, by decide⟩, trivial⟩, trivial⟩,
      ⟨⟨rfl, by decide⟩, ⟨by decide, _, rfl, rfl⟩⟩, trivial⟩, ⟨rfl, by decide⟩⟩
  have hload : t.load ≤ 40 := by decide +kernel
  exact ⟨hlegible, hload, by decide +kernel, (parse_render_eq_leftChains hlegible hload).1⟩

end Filter

end Funnel
