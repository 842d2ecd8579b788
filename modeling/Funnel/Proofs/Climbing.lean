import Mathlib
import Funnel.Proofs.Operands

/-!
# Climbing

The reader gives back every expression that `Expr.Grouped` describes from its tokens.  It reads an
operand and then climbs from operator to operator while they bind more tightly than the level it
was called with.  The invariant is `Climbs`: at any level below the floor of an expression, the
reader gets to the point where the expression stands on the left of what is behind its tokens, and
climbs on from there.
-/

namespace Funnel.Sql.Grammar

open Rule

variable {n : Nested} {ts rest : List Lexeme}

/-! ## Levels of what follows -/

theorem follow_le (h : Ends rest) : follow rest ≤ 40 := by
  rcases rest with _ | ⟨⟨t, p⟩, rest⟩
  · exact Nat.zero_le _
  have ht := h.head _ rfl
  have hkeyword : ∀ second third : Option Keyword, keywordLevel "NOT" second third ≤ 40 := by
    intro second third
    simp only [keywordLevel]
    split <;> omega
  simp only [followers, List.mem_cons, List.not_mem_nil, or_false] at ht
  rcases ht with rfl | rfl | rfl | rfl | rfl | rfl | rfl | rfl | rfl | rfl | rfl | rfl | rfl | rfl |
    rfl | rfl | rfl | rfl | rfl | rfl | rfl | rfl | rfl <;>
    first
    | exact hkeyword ((rest[0]?.map Lexeme.token).bind Token.key?)
        ((rest[1]?.map Lexeme.token).bind Token.key?)
    | exact Nat.le_of_ble_eq_true rfl

theorem follow_infix (op : Infix) (place : Nat) (ls : List Lexeme) :
    follow (⟨op.token, place⟩ :: ls) = op.level := by
  cases op with
  | binary op => cases op <;> rfl
  | logical op => cases op <;> rfl

/-- The words of a test that may be negated bind at one level. -/
theorem follow_word {negated : Bool} {written : String} {k : Keyword}
    (hk : k ∈ ["IN", "BETWEEN", "LIKE", "ILIKE"])
    (hts : Spells ts (Expr.notTokens negated ++ [keyToken written k])) (ls : List Lexeme) :
    follow (ts ++ ls) = if k ∈ ["IN", "BETWEEN"] then 20 else 19 := by
  simp only [List.mem_cons, List.not_mem_nil, or_false] at hk
  cases negated with
  | false =>
    obtain ⟨p, ts', rfl, -⟩ := Spells.of_cons hts
    rcases hk with rfl | rfl | rfl | rfl <;> rfl
  | true =>
    obtain ⟨p, ts', rfl, hts'⟩ := Spells.of_cons hts
    obtain ⟨p', ts'', rfl, -⟩ := Spells.of_cons hts'
    rcases hk with rfl | rfl | rfl | rfl <;> rfl

theorem Ends.of_word {negated : Bool} {written : String} {k : Keyword}
    (hk : keyToken written k ∈ followers)
    (hts : Spells ts (Expr.notTokens negated ++ [keyToken written k])) {ls : List Lexeme}
    (hls : ∀ l ∈ ts ++ ls, l.token ≠ .symbol .lbracket) : Ends (ts ++ ls) := by
  refine ⟨?_, hls⟩
  cases negated with
  | false =>
    obtain ⟨p, ts', rfl, -⟩ := Spells.of_cons hts
    simpa using hk
  | true =>
    obtain ⟨p, ts', rfl, -⟩ := Spells.of_cons hts
    have hnot : keyToken "NOT" "NOT" ∈ followers := by decide
    simpa using hnot

/-! ## Right sides -/

/-- What stands between an operator and its right side is nothing. -/
theorem rightSide_eq (op : Operator) (left : Expr) {right : Expr} {level : Nat}
    (place : Option Nat) (h : ReadsNested n right) (hg : right.Grouped)
    (hts : Spells ts right.tokens) (hrest : Ends rest) (hfloor : level < right.floor)
    (hfollow : follow rest ≤ level) :
    rightSide n left op level place (ts ++ rest) = .ok (op.apply left right, rest) := by
  have hstarts := starts_tokens hg hts hrest
  rw [rightSide, bind_ok (oneOfKeys?_eq_none (hstarts.not_mem_key (by decide)))]
  exact (bind_ok (h level ts rest hts hrest hfloor hfollow)).trans rfl

theorem infixExpression_operator (op : Infix) {left right : Expr} (h : ReadsNested n right)
    (hg : right.Grouped) (hts : Spells ts right.tokens) (hrest : Ends rest)
    (hfloor : op.level < right.floor) (hfollow : follow rest ≤ op.level) (place : Nat) :
    infixExpression n left op.level (⟨op.token, place⟩ :: (ts ++ rest)) =
      .ok (op.apply left right, rest) := by
  have hright := rightSide_eq op.operator left (some place) h hg hts hrest hfloor hfollow
  cases op with
  | binary op => cases op <;> exact hright
  | logical op => cases op <;> exact hright

theorem infixExpression_isNull (left : Expr) (negated : Bool)
    (hts : Spells ts (keyToken "IS" "IS" :: Expr.notTokens negated ++ [keyToken "NULL" "NULL"])) :
    infixExpression n left 17 (ts ++ rest) = .ok (.isNull left negated, rest) := by
  obtain ⟨p, ts', rfl, hts'⟩ := Spells.of_cons hts
  cases negated with
  | false =>
    obtain ⟨p', ts'', rfl, hnil⟩ := Spells.of_cons hts'
    rw [hnil.of_nil]
    rfl
  | true =>
    obtain ⟨p', ts'', rfl, hts''⟩ := Spells.of_cons hts'
    obtain ⟨p'', ts''', rfl, hnil⟩ := Spells.of_cons hts''
    rw [hnil.of_nil]
    rfl

/-- The words of a test that may be negated, in front of its right side. -/
theorem infixExpression_word {left e : Expr} {negated : Bool} {k : Keyword} {written : String}
    {level : Nat} {ls : List Lexeme}
    (hk : k ∈ ["IN", "BETWEEN", "LIKE", "ILIKE"])
    (hts : Spells ts (Expr.notTokens negated ++ [keyToken written k]))
    (hrun : (match k with
      | "IN" => inExpression n left negated
      | "BETWEEN" => betweenExpression n left negated
      | "LIKE" => likeExpression n left negated false
      | _ => likeExpression n left negated true) ls = .ok (e, rest)) :
    infixExpression n left level (ts ++ ls) = .ok (e, rest) := by
  simp only [List.mem_cons, List.not_mem_nil, or_false] at hk
  cases negated with
  | false =>
    obtain ⟨p, ts', rfl, hnil⟩ := Spells.of_cons hts
    rw [hnil.of_nil]
    rcases hk with rfl | rfl | rfl | rfl <;> exact hrun
  | true =>
    obtain ⟨p, ts', rfl, hts'⟩ := Spells.of_cons hts
    obtain ⟨p', ts'', rfl, hnil⟩ := Spells.of_cons hts'
    rw [hnil.of_nil]
    rcases hk with rfl | rfl | rfl | rfl <;> exact hrun

theorem inExpression_eq (left : Expr) (negated : Bool) {first : Expr} {others : List Expr}
    (h : ∀ item ∈ first :: others, item.Grouped ∧ ReadsNested n item)
    (hts : Spells ts ([.symbol .comma].intercalate (Expr.tokensAll (first :: others))))
    (opening closing : Nat) (hrest : Ends rest) :
    inExpression n left negated
        (⟨.symbol .lparen, opening⟩ :: (ts ++ ⟨.symbol .rparen, closing⟩ :: rest)) =
      .ok (.inList left first others negated, rest) := by
  have hend : Ends (⟨.symbol .rparen, closing⟩ :: rest) := .cons (by decide) hrest.plain
  have hstarts := starts_items (fun item hitem ↦ (h item hitem).1) hts hend
  have hitems := expressions_eq h hts closing hrest
  rw [inExpression, bind_ok (key?_eq_false (by simp [Token.key?]))]
  show (symbol .lparen >>= _) _ = _
  rw [bind_ok (symbol_eq .lparen opening _)]
  show ((queryAhead >>= _) >>= _) _ = _
  rw [bind_ok ((bind_ok hstarts.queryAhead_eq).trans ((bind_ok hitems).trans rfl)),
    bind_ok (symbol_eq .rparen closing rest)]
  rfl

theorem betweenExpression_eq (left : Expr) (negated : Bool) {low high : Expr}
    (hl : ReadsNested n low) (hlow : 20 < low.floor) (hh : ReadsNested n high)
    (hhigh : 20 < high.floor) {us : List Lexeme} (hts : Spells ts low.tokens)
    (hus : Spells us high.tokens)
    (hplain : ∀ l ∈ us, l.token ≠ .symbol .lbracket) (place : Nat)
    (hrest : Ends rest) (hfollow : follow rest ≤ 20) :
    betweenExpression n left negated (ts ++ ⟨keyToken "AND" "AND", place⟩ :: (us ++ rest)) =
      .ok (.between left low high negated, rest) := by
  have hend : Ends (⟨keyToken "AND" "AND", place⟩ :: (us ++ rest)) :=
    .cons (by decide) (ne_lbracket_append hplain hrest)
  have hlevel : follow (⟨keyToken "AND" "AND", place⟩ :: (us ++ rest)) ≤ 20 :=
    Nat.le_of_ble_eq_true rfl
  rw [betweenExpression, bind_ok (hl 20 ts _ hts hend hlow hlevel), bind_ok rfl]
  exact (bind_ok (hh 20 us rest hus hrest hhigh hfollow)).trans rfl

theorem likeExpression_eq (left : Expr) (negated ignoreCase : Bool) {pattern : Expr}
    (h : ReadsNested n pattern) (hg : pattern.Grouped) (hfloor : 19 < pattern.floor)
    (hts : Spells ts pattern.tokens) (hrest : Ends rest) (hfollow : follow rest ≤ 19) :
    likeExpression n left negated ignoreCase (ts ++ rest) =
      .ok (.like left pattern negated ignoreCase, rest) := by
  have hstarts := starts_tokens hg hts hrest
  have hescape : escapeClause rest = .ok (none, rest) := by
    rw [escapeClause, bind_ok (key?_eq_false (hrest.ne_key (by decide)))]
    rfl
  rw [likeExpression, bind_ok (key?_eq_false (hstarts.ne_key (by decide))),
    bind_ok (h 19 ts rest hts hrest hfloor hfollow), bind_ok hescape]
  rfl

/-! ## Climbing -/

/-- An operator that binds more tightly than the level is taken. -/
theorem climb_of_lt {level fuel : Nat} {left e : Expr} {ls : List Lexeme} (hlt : level < follow ls)
    (h : infixExpression n left (follow ls) ls = .ok (e, rest)) :
    climb n level (fuel + 1) left ls = climb n level fuel e rest := by
  have hnot : ¬ follow ls ≤ level := by omega
  rw [climb, bind_ok (nextLevel_eq ls)]
  simp only [hnot, if_false]
  exact bind_ok h

/-- Any other one is left. -/
theorem climb_of_le {level : Nat} (fuel : Nat) {left : Expr} (h : follow rest ≤ level) :
    climb n level fuel left rest = .ok (left, rest) := by
  cases fuel with
  | zero => rfl
  | succ fuel =>
    rw [climb, bind_ok (nextLevel_eq rest)]
    simp only [h, if_true]
    rfl

/-! ## The reader -/

theorem ReadsNested.of_expr_eq {m : Nested} {e : Expr} (h : ReadsNested n e)
    (heq : m.expr = n.expr) : ReadsNested m e := by
  intro level ts rest hts hrest hlevel hfollow
  rw [heq]
  exact h level ts rest hts hrest hlevel hfollow

/-- The operand rule for what is nested `depth` deep. -/
theorem operand_nested (depth : Nat) {e : Expr} {ls : List Lexeme} (hrest : Ends rest)
    (h : ∀ m : Nested, m.expr = (nested false depth).expr →
      bareOperand m ls = .ok ((e, true), rest)) :
    (nested false depth).operand ls = .ok (e, rest) := by
  have hof : ∀ expr hierarchic query, (∀ fuel, bareOperand
      (nestedIn false expr hierarchic query fuel) ls = .ok ((e, true), rest)) →
      (Nested.of false expr hierarchic query).operand ls = .ok (e, rest) := by
    intro expr hierarchic query hbare
    exact (bind_ok (hbare ls.length)).trans (hrest.collated_eq e)
  have hexpr : ∀ expr hierarchic query fuel,
      (nestedIn false expr hierarchic query fuel).expr = expr := by
    intro expr hierarchic query fuel
    cases fuel <;> rfl
  cases depth with
  | zero => exact hof _ _ _ fun fuel ↦ h _ (hexpr _ _ _ fuel)
  | succ depth => exact hof _ _ _ fun fuel ↦ h _ (hexpr _ _ _ fuel)

/-- The reader gets to the point where an expression stands on the left of `rest`. -/
def Reaches (depth level : Nat) (e : Expr) (ts rest : List Lexeme) : Prop :=
  ∃ fuel, rest.length ≤ fuel ∧ expressionAt (nested false depth) level (ts ++ rest) =
    climb (nested false depth) level fuel e rest

/-- An expression that is an operand by itself. -/
theorem reaches_operand {depth level : Nat} {e : Expr} (hrest : Ends rest)
    (h : ∀ m : Nested, m.expr = (nested false depth).expr →
      bareOperand m (ts ++ rest) = .ok ((e, true), rest)) : Reaches depth level e ts rest := by
  refine ⟨(ts ++ rest).length, by simp, ?_⟩
  rw [expressionAt, bind_ok rfl, bind_ok (operand_nested depth hrest h)]

/-- What holds of the expression on the left of an operator holds of both with the operator between
them. -/
theorem Reaches.step {depth level next : Nat} {left e : Expr} {ts us : List Lexeme}
    (hleft : Reaches depth level left ts (us ++ rest)) (hus : us ≠ [])
    (hnext : follow (us ++ rest) = next) (hlevel : level < next)
    (h : infixExpression (nested false depth) left next (us ++ rest) = .ok (e, rest)) :
    Reaches depth level e (ts ++ us) rest := by
  subst hnext
  obtain ⟨fuel, hfuel, hrun⟩ := hleft
  have hlength : 0 < us.length := List.length_pos_of_ne_nil hus
  obtain _ | fuel := fuel
  · simp only [List.length_append] at hfuel
    omega
  refine ⟨fuel, ?_, ?_⟩
  · simp only [List.length_append] at hfuel
    omega
  · rw [List.append_assoc, hrun, climb_of_lt hlevel h]

/-! ## One form at a time -/

/-- The level of a test. -/
def testLevel (k : Keyword) : Nat := if k ∈ ["IN", "BETWEEN"] then 20 else 19

/-- At a level below the floor of an expression, the reader gets from its tokens to the point where
the expression stands on the left of what is behind them. -/
def Climbs (e : Expr) : Prop :=
  ∀ ⦃depth level : Nat⦄ ⦃ts rest : List Lexeme⦄, e.depth ≤ depth → Spells ts e.tokens → Ends rest →
    level < e.floor → follow rest ≤ e.edge → Reaches depth level e ts rest

namespace Climbs

variable {depth : Nat} {e : Expr}

/-- What is one level deeper is read in full. -/
theorem readsNested (h : Climbs e) (hdepth : e.depth + 1 ≤ depth) :
    ReadsNested (nested false depth) e := by
  obtain _ | depth := depth
  · omega
  intro level ts rest hts hrest hlevel hfollow
  have hedge : follow rest ≤ e.edge :=
    Expr.le_edge_of_lt_floor (by omega) (follow_le hrest)
  obtain ⟨fuel, -, hrun⟩ := h (Nat.le_of_succ_le_succ hdepth) hts hrest hlevel hedge
  exact hrun.trans (climb_of_le fuel hfollow)

theorem readsNested_of_expr_eq (h : Climbs e) (hdepth : e.depth + 1 ≤ depth) {m : Nested}
    (hm : m.expr = (nested false depth).expr) : ReadsNested m e :=
  (h.readsNested hdepth).of_expr_eq hm

theorem column {parts : List Ident} (hparts : parts ≠ []) : Climbs (.column parts) := by
  intro depth level ts rest _ hts hrest _ _
  have hplain := hts.ne_lbracket (.column hparts)
  obtain ⟨name, parts, rfl⟩ := List.exists_cons_of_ne_nil hparts
  rw [Expr.tokens, nameTokens_cons] at hts
  obtain ⟨p, ts', rfl, htail⟩ := hts.of_cons
  refine reaches_operand hrest fun m _ ↦ ?_
  rw [List.cons_append, bareOperand_word m name p (by simp)
    (ne_lbracket_append (fun l hl ↦ hplain l (by simp [hl])) hrest)]
  exact (bind_ok (nameExpression_column htail hrest)).trans rfl

theorem number (m : Numeral) : Climbs (.literal (.number m false)) :=
  fun _ _ _ _ _ hts hrest _ _ ↦ reaches_operand hrest fun _ _ ↦ bareOperand_number m hts hrest

theorem string (text : String) : Climbs (.literal (.string .plain text)) :=
  fun _ _ _ _ _ hts hrest _ _ ↦ reaches_operand hrest fun _ _ ↦ bareOperand_string text hts hrest

theorem boolean (value : Bool) : Climbs (.literal (.boolean value)) := by
  intro depth level ts rest _ hts hrest _ _
  cases value with
  | false =>
    exact reaches_operand hrest fun _ _ ↦ bareOperand_key (by decide) hts hrest fun _ _ _ ↦ rfl
  | true =>
    exact reaches_operand hrest fun _ _ ↦ bareOperand_key (by decide) hts hrest fun _ _ _ ↦ rfl

theorem null : Climbs (.literal .null) := fun _ _ _ _ _ hts hrest _ _ ↦
  reaches_operand hrest fun _ _ ↦ bareOperand_key (by decide) hts hrest fun _ _ _ ↦ rfl

theorem nested (h : e.Grouped) (ih : Climbs e) : Climbs (.nested e) := by
  intro depth level ts rest hdepth hts hrest _ _
  rw [Expr.depth] at hdepth
  exact reaches_operand hrest fun m hm ↦
    bareOperand_nested (ih.readsNested_of_expr_eq hdepth hm) h hts hrest

theorem not (h : e.Grouped) (hfloor : 15 < e.floor) (ih : Climbs e) : Climbs (.unary .not e) := by
  intro depth level ts rest hdepth hts hrest _ hfollow
  rw [Expr.depth] at hdepth
  exact reaches_operand hrest fun m hm ↦
    bareOperand_not (ih.readsNested_of_expr_eq hdepth hm) h hfloor hts hrest hfollow

theorem sign {op : UnaryOp} (hop : op ≠ .not) (h : e.Grouped) (hfloor : 40 < e.floor)
    (ih : Climbs e) : Climbs (.unary op e) := by
  intro depth level ts rest hdepth hts hrest _ _
  rw [Expr.depth] at hdepth
  exact reaches_operand hrest fun m hm ↦
    bareOperand_sign hop (ih.readsNested_of_expr_eq hdepth hm) h hfloor hts hrest (follow_le hrest)

theorem operator (op : Infix) {left right : Expr} (hl : left.Grouped) (hr : right.Grouped)
    (hedge : op.level ≤ left.edge) (hfloor : op.level < right.floor) (ihl : Climbs left)
    (ihr : Climbs right) : Climbs (op.apply left right) := by
  intro depth level ts rest hdepth hts hrest hlevel hfollow
  have hplain := hts.ne_lbracket (.operator op hl hr hedge hfloor)
  rw [Expr.depth_apply] at hdepth
  rw [Expr.floor_apply] at hlevel
  rw [Expr.edge_apply] at hfollow
  rw [Expr.tokens_apply] at hts
  obtain ⟨ts₁, ts₂, rfl, hts₁, hts₂⟩ := hts.of_append
  obtain ⟨p, ts₃, rfl, hts₃⟩ := hts₂.of_cons
  have hend : Ends (⟨op.token, p⟩ :: ts₃ ++ rest) :=
    .cons (token_mem_followers op) (ne_lbracket_append (fun l hl ↦ hplain l (by simp [hl])) hrest)
  have hnext : follow (⟨op.token, p⟩ :: ts₃ ++ rest) = op.level := follow_infix op p _
  have hleft := ihl (show left.depth ≤ depth by omega) hts₁ hend (show level < left.floor by omega)
    (by omega)
  refine hleft.step (by simp) hnext (by omega) ?_
  exact infixExpression_operator op (ihr.readsNested (by omega)) hr hts₃ hrest hfloor hfollow p

theorem isNull {negated : Bool} (h : e.Grouped) (hedge : 17 ≤ e.edge) (ih : Climbs e) :
    Climbs (.isNull e negated) := by
  intro depth level ts rest hdepth hts hrest hlevel _
  have hplain := hts.ne_lbracket (.isNull h hedge)
  rw [Expr.depth] at hdepth
  rw [Expr.floor] at hlevel
  rw [Expr.tokens, List.append_assoc] at hts
  obtain ⟨ts₁, ts₂, rfl, hts₁, hts₂⟩ := Spells.of_append hts
  have hinfix : infixExpression (Grammar.nested false depth) e 17 (ts₂ ++ rest) =
      .ok (.isNull e negated, rest) := infixExpression_isNull e negated hts₂
  obtain ⟨p, ts₃, rfl, -⟩ := Spells.of_cons hts₂
  have hend : Ends (⟨keyToken "IS" "IS", p⟩ :: ts₃ ++ rest) :=
    .cons (by decide) (ne_lbracket_append (fun l hl ↦ hplain l (by simp [hl])) hrest)
  have hleft := ih hdepth hts₁ hend (show level < e.floor by omega) hedge
  exact hleft.step (by simp) rfl (by show level < 17; omega) hinfix

/-- A test of an expression. -/
theorem test {level : Nat} {left : Expr} {negated : Bool} {written : String} {k : Keyword}
    (hk : k ∈ ["IN", "BETWEEN", "LIKE", "ILIKE"]) (hfollower : keyToken written k ∈ followers)
    {us vs : List Lexeme} (ih : Climbs left) (hdepth : left.depth ≤ depth)
    (hts : Spells ts left.tokens) (hus : Spells us (Expr.notTokens negated ++ [keyToken written k]))
    (hplain : ∀ l ∈ ts ++ (us ++ vs), l.token ≠ .symbol .lbracket) (hrest : Ends rest)
    (hfloor : level < left.floor) (hlevel : level < testLevel k) (hedge : testLevel k ≤ left.edge)
    (hrun : (match k with
      | "IN" => inExpression (Grammar.nested false depth) left negated
      | "BETWEEN" => betweenExpression (Grammar.nested false depth) left negated
      | "LIKE" => likeExpression (Grammar.nested false depth) left negated false
      | _ => likeExpression (Grammar.nested false depth) left negated true) (vs ++ rest) =
        .ok (e, rest)) :
    Reaches depth level e (ts ++ (us ++ vs)) rest := by
  have hnext : follow (us ++ (vs ++ rest)) = testLevel k := follow_word hk hus _
  have hend : Ends (us ++ (vs ++ rest)) := by
    refine .of_word hfollower hus ?_
    rw [← List.append_assoc]
    exact ne_lbracket_append (fun l hl ↦ hplain l (List.mem_append_right _ hl)) hrest
  rw [← List.append_assoc] at hnext hend
  have hne : us ++ vs ≠ [] := by
    intro hnil
    rw [(List.append_eq_nil_iff.1 hnil).1] at hus
    cases negated <;> cases hus
  have hleft := ih hdepth hts hend hfloor (by omega)
  refine hleft.step hne hnext hlevel ?_
  rw [List.append_assoc]
  exact infixExpression_word hk hus hrun

theorem inList {first : Expr} {others : List Expr} {negated : Bool} (h : e.Grouped)
    (hedge : 20 ≤ e.edge) (hitems : ∀ item ∈ first :: others, item.Grouped) (ih : Climbs e)
    (ihitems : ∀ item ∈ first :: others, Climbs item) :
    Climbs (.inList e first others negated) := by
  intro depth level ts rest hdepth hts hrest hlevel _
  have hplain := hts.ne_lbracket (.inList h hedge hitems)
  rw [Expr.depth] at hdepth
  rw [Expr.floor] at hlevel
  have hsplit : Spells ts (e.tokens ++ ((Expr.notTokens negated ++ [keyToken "IN" "IN"]) ++
      (.symbol .lparen :: ([.symbol .comma].intercalate (Expr.tokensAll (first :: others)) ++
        [.symbol .rparen])))) := by
    simpa [Expr.tokens, Expr.tokensAll] using hts
  obtain ⟨ts₁, ts₂, rfl, hts₁, hts₂⟩ := hsplit.of_append
  obtain ⟨ts₃, ts₄, rfl, hts₃, hts₄⟩ := hts₂.of_append
  obtain ⟨opening, ts₅, rfl, hts₅⟩ := hts₄.of_cons
  obtain ⟨ts₆, ts₇, rfl, hts₆, hts₇⟩ := hts₅.of_append
  obtain ⟨closing, ts₈, rfl, hnil⟩ := hts₇.of_cons
  rw [hnil.of_nil] at hplain ⊢
  have hitems' : ∀ item ∈ first :: others,
      item.Grouped ∧ ReadsNested (Grammar.nested false depth) item := by
    intro item hitem
    have hle : item.depth + 1 ≤ depth := by
      rcases List.mem_cons.1 hitem with rfl | hother
      · omega
      · have := Expr.depth_le_depthAll hother
        omega
    exact ⟨hitems item hitem, (ihitems item hitem).readsNested hle⟩
  refine ih.test (by decide) (by decide) (by omega) hts₁ hts₃ hplain hrest (by omega)
    (by show level < 20; omega) hedge ?_
  rw [List.cons_append, List.append_assoc]
  exact inExpression_eq e negated hitems' hts₆ opening closing hrest

theorem between {low high : Expr} {negated : Bool} (h : e.Grouped) (hedge : 20 ≤ e.edge)
    (hl : low.Grouped) (hlow : 20 < low.floor) (hh : high.Grouped) (hhigh : 20 < high.floor)
    (ih : Climbs e) (ihl : Climbs low) (ihh : Climbs high) :
    Climbs (.between e low high negated) := by
  intro depth level ts rest hdepth hts hrest hlevel hfollow
  have hplain := hts.ne_lbracket (.between h hedge hl hlow hh hhigh)
  rw [Expr.depth] at hdepth
  rw [Expr.floor] at hlevel
  have hsplit : Spells ts (e.tokens ++
      ((Expr.notTokens negated ++ [keyToken "BETWEEN" "BETWEEN"]) ++
        (low.tokens ++ keyToken "AND" "AND" :: high.tokens))) := by
    simpa [Expr.tokens] using hts
  obtain ⟨ts₁, ts₂, rfl, hts₁, hts₂⟩ := hsplit.of_append
  obtain ⟨ts₃, ts₄, rfl, hts₃, hts₄⟩ := hts₂.of_append
  obtain ⟨ts₅, ts₆, rfl, hts₅, hts₆⟩ := hts₄.of_append
  obtain ⟨p, ts₇, rfl, hts₇⟩ := hts₆.of_cons
  refine ih.test (by decide) (by decide) (by omega) hts₁ hts₃ hplain hrest (by omega)
    (by show level < 20; omega) hedge ?_
  rw [List.append_assoc, List.cons_append]
  exact betweenExpression_eq e negated (ihl.readsNested (by omega)) hlow
    (ihh.readsNested (by omega)) hhigh hts₅ hts₇ (fun l hl ↦ hplain l (by simp [hl])) p hrest
    hfollow

theorem like {pattern : Expr} {negated ignoreCase : Bool} (h : e.Grouped) (hedge : 19 ≤ e.edge)
    (hp : pattern.Grouped) (hpattern : 19 < pattern.floor) (ih : Climbs e) (ihp : Climbs pattern) :
    Climbs (.like e pattern negated ignoreCase) := by
  intro depth level ts rest hdepth hts hrest hlevel hfollow
  have hplain := hts.ne_lbracket (.like h hedge hp hpattern)
  rw [Expr.depth] at hdepth
  rw [Expr.floor] at hlevel
  have hsplit : Spells ts (e.tokens ++ ((Expr.notTokens negated ++ [Expr.likeToken ignoreCase]) ++
      pattern.tokens)) := by
    simpa [Expr.tokens] using hts
  obtain ⟨ts₁, ts₂, rfl, hts₁, hts₂⟩ := hsplit.of_append
  obtain ⟨ts₃, ts₄, rfl, hts₃, hts₄⟩ := hts₂.of_append
  have hpatternRead := ihp.readsNested (show pattern.depth + 1 ≤ depth by omega)
  have hrun := likeExpression_eq e negated ignoreCase hpatternRead hp hpattern hts₄ hrest hfollow
  cases ignoreCase with
  | false =>
    exact ih.test (k := "LIKE") (by decide) (by decide) (by omega) hts₁ hts₃ hplain hrest (by omega)
      (by show level < 19; omega) hedge hrun
  | true =>
    exact ih.test (k := "ILIKE") (by decide) (by decide) (by omega) hts₁ hts₃ hplain hrest
      (by omega) (by show level < 19; omega) hedge hrun

theorem cast {type : DataType} (h : e.Grouped) (htype : Expr.ReadsBack type) (ih : Climbs e) :
    Climbs (.cast .function e type) := by
  intro depth level ts rest hdepth hts hrest _ _
  rw [Expr.depth] at hdepth
  exact reaches_operand hrest fun m hm ↦
    bareOperand_cast (ih.readsNested_of_expr_eq hdepth hm) h htype hts hrest

theorem call {name : List Ident} {args : List Expr} (hname : name ≠ [])
    (hargs : ∀ arg ∈ args, arg.Grouped) (ih : ∀ arg ∈ args, Climbs arg) :
    Climbs (.call name args) := by
  intro depth level ts rest hdepth hts hrest _ _
  have hplain := hts.ne_lbracket (.call hname hargs)
  rw [Expr.depth] at hdepth
  obtain ⟨part, parts, rfl⟩ := List.exists_cons_of_ne_nil hname
  have hsplit : Spells ts (.word part none :: (tailTokens parts ++ .symbol .lparen ::
      ([.symbol .comma].intercalate (Expr.tokensAll args) ++ [.symbol .rparen]))) := by
    simpa [Expr.tokens, nameTokens_cons] using hts
  obtain ⟨p, ts₁, rfl, hts₁⟩ := hsplit.of_cons
  obtain ⟨ts₂, ts₃, rfl, hts₂, hts₃⟩ := hts₁.of_append
  obtain ⟨opening, ts₄, rfl, hts₄⟩ := hts₃.of_cons
  obtain ⟨ts₅, ts₆, rfl, hts₅, hts₆⟩ := hts₄.of_append
  obtain ⟨closing, ts₇, rfl, hnil⟩ := hts₆.of_cons
  rw [hnil.of_nil] at hplain ⊢
  refine reaches_operand hrest fun m hm ↦ ?_
  have hargs' : ∀ arg ∈ args, arg.Grouped ∧ ReadsNested m arg := by
    intro arg harg
    have := Expr.depth_le_depthAll harg
    exact ⟨hargs arg harg, (ih arg harg).readsNested_of_expr_eq (by omega) hm⟩
  have hrun := nameExpression_call part hts₂ hargs' hts₅ opening closing hrest
  rw [List.cons_append, bareOperand_word m part p (by simp)
    (ne_lbracket_append (fun l hl ↦ hplain l (by simp [hl])) hrest)]
  refine (bind_ok ?_).trans rfl
  simpa using hrun

end Climbs

/-! ## The whole of an expression -/

theorem climbs {e : Expr} (h : e.Grouped) : Climbs e := by
  induction h with
  | column hparts => exact .column hparts
  | number m => exact .number m
  | string text => exact .string text
  | boolean value => exact .boolean value
  | null => exact .null
  | nested h ih => exact .nested h ih
  | not h hfloor ih => exact .not h hfloor ih
  | sign hop h hfloor ih => exact .sign hop h hfloor ih
  | operator op hl hr hedge hfloor ihl ihr => exact .operator op hl hr hedge hfloor ihl ihr
  | isNull h hedge ih => exact .isNull h hedge ih
  | inList h hedge hitems ih ihitems => exact .inList h hedge hitems ih ihitems
  | between h hedge hl hlow hh hhigh ih ihl ihh =>
    exact .between h hedge hl hlow hh hhigh ih ihl ihh
  | like h hedge hp hpattern ih ihp => exact .like h hedge hp hpattern ih ihp
  | cast h htype ih => exact .cast h htype ih
  | call hname hargs ih => exact .call hname hargs ih

/-- The reader gives an expression back from its tokens. -/
theorem expression_eq {e : Expr} (h : e.Grouped) (hdepth : e.depth < maxDepth)
    (hts : Spells ts e.tokens) : expression ts = .ok (e, []) := by
  have hread : ReadsNested (nested false maxDepth) e := (climbs h).readsNested hdepth
  have hend : Ends [] := ⟨by simp, by simp⟩
  have hrun := hread.expression_eq h hts hend rfl
  rw [List.append_nil] at hrun
  exact hrun

end Funnel.Sql.Grammar
