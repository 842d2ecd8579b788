import Mathlib
import Funnel.Sql.Grammar.Infix

/-!
# Grouping by Levels

How an expression without further parentheses stands in a row of tokens.  `Expr.tokens` are these
tokens.  Two numbers say how an expression meets its neighbours: no operator on its left side has a
level below `Expr.floor`, and an operator behind it is left to others if its level is at most
`Expr.edge`.  `Expr.Grouped` are the expressions whose tokens stand for no other expression.

An operand that is set behind an ungrouped expression need not go to its root: `Expr.attach` puts
two expressions together in the way in which their tokens group.
-/

namespace Funnel.Sql

/-! ## Operators -/

/-- A keyword as it is written in a filter. -/
def keyToken (written : String) (k : Keyword) : Token := .word (.plain written) (some k)

/-- The operators between two operands that a filter gives a meaning to. -/
inductive Infix
  | binary (op : BinaryOp)
  | logical (op : LogicalOp)
deriving DecidableEq

def BinaryOp.symbol : BinaryOp → Symbol
  | eq => .eq
  | notEq => .notEq
  | lt => .lt
  | ltEq => .ltEq
  | gt => .gt
  | gtEq => .gtEq
  | plus => .plus
  | minus => .minus
  | multiply => .times
  | divide => .div
  | modulo => .mod
  | concat => .concat

namespace Infix

def operator : Infix → Grammar.Operator
  | binary op => .binary op
  | logical op => .logical op

def apply (op : Infix) (left right : Expr) : Expr := op.operator.apply left right

def token : Infix → Token
  | binary op => .symbol op.symbol
  | logical .and => keyToken "AND" "AND"
  | logical .or => keyToken "OR" "OR"

/-- How tightly an operator binds when it is read. -/
def level : Infix → Nat
  | binary op => Grammar.symbolLevel op.symbol
  | logical .and => 10
  | logical .or => 5

theorem level_le (op : Infix) : op.level ≤ 40 := by
  cases op with
  | binary op => cases op <;> decide
  | logical op => cases op <;> decide

end Infix

namespace Expr

/-! ## Tokens -/

def nameTokens (parts : List Ident) : List Token :=
  (parts.map fun name ↦ .word name none).intersperse (.symbol .period)

def literalTokens : Literal → List Token
  | .number n long => [.number n long]
  | .string style text => [.string style text]
  | .boolean true => [keyToken "true" "TRUE"]
  | .boolean false => [keyToken "false" "FALSE"]
  | .null => [keyToken "NULL" "NULL"]
  | .placeholder text => [.placeholder text]

def unaryToken : UnaryOp → Token
  | .not => keyToken "NOT" "NOT"
  | .minus => .symbol .minus
  | .plus => .symbol .plus

def notTokens (negated : Bool) : List Token := if negated then [keyToken "NOT" "NOT"] else []

def likeToken (ignoreCase : Bool) : Token :=
  if ignoreCase then keyToken "ILIKE" "ILIKE" else keyToken "LIKE" "LIKE"

mutual

/-- The tokens that a filter writes for an expression; none are defined for the forms that no filter
writes. -/
def tokens : Expr → List Token
  | column parts => nameTokens parts
  | literal value => literalTokens value
  | nested e => .symbol .lparen :: e.tokens ++ [.symbol .rparen]
  | unary op e => unaryToken op :: e.tokens
  | binary op left right => left.tokens ++ (Infix.binary op).token :: right.tokens
  | logical op left right => left.tokens ++ (Infix.logical op).token :: right.tokens
  | isNull e negated =>
    e.tokens ++ keyToken "IS" "IS" :: notTokens negated ++ [keyToken "NULL" "NULL"]
  | inList e first others negated =>
    e.tokens ++ notTokens negated ++ keyToken "IN" "IN" :: .symbol .lparen ::
      [.symbol .comma].intercalate (first.tokens :: tokensAll others) ++ [.symbol .rparen]
  | between e low high negated =>
    e.tokens ++ notTokens negated ++ keyToken "BETWEEN" "BETWEEN" :: low.tokens ++
      keyToken "AND" "AND" :: high.tokens
  | like e pattern negated ignoreCase =>
    e.tokens ++ notTokens negated ++ likeToken ignoreCase :: pattern.tokens
  | cast _ e type =>
    keyToken "cast" "CAST" :: .symbol .lparen :: e.tokens ++
      [keyToken "AS" "AS", .ofWord type.sql, .symbol .rparen]
  | call name args =>
    nameTokens name ++ .symbol .lparen :: [.symbol .comma].intercalate (tokensAll args) ++
      [.symbol .rparen]
  | subquery _ _ => []
  | other _ _ => []
  | abridged _ _ _ => []

def tokensAll : List Expr → List (List Token)
  | [] => []
  | e :: es => e.tokens :: tokensAll es

end

theorem tokensAll_eq_map (es : List Expr) : tokensAll es = es.map tokens := by
  induction es with
  | nil => rfl
  | cons e es ih => rw [tokensAll, ih, List.map_cons]

theorem tokens_apply (op : Infix) (left right : Expr) :
    (op.apply left right).tokens = left.tokens ++ op.token :: right.tokens := by
  cases op with
  | binary op => rw [Infix.apply, Infix.operator, Grammar.Operator.apply, tokens]
  | logical op => rw [Infix.apply, Infix.operator, Grammar.Operator.apply, tokens]

/-! ## Where an expression meets others -/

/-- No operator on the left side of the expression has a level below this one.  A negation may stand
where level 15 ends. -/
def floor : Expr → Nat
  | unary .not _ => 16
  | binary op left _ => min (Infix.binary op).level left.floor
  | logical op left _ => min (Infix.logical op).level left.floor
  | isNull e _ => min 17 e.floor
  | like e _ _ _ => min 19 e.floor
  | inList e _ _ _ => min 20 e.floor
  | between e _ _ _ => min 20 e.floor
  | _ => 50

/-- An operator behind the expression goes to its last operand if its level is above this one. -/
def edge : Expr → Nat
  | unary .not _ => 15
  | unary _ _ => 40
  | binary op _ _ => (Infix.binary op).level
  | logical op _ _ => (Infix.logical op).level
  | like _ _ _ _ => 19
  | between _ _ _ _ => 20
  | _ => 50

@[simp]
theorem floor_apply (op : Infix) (left right : Expr) :
    (op.apply left right).floor = min op.level left.floor := by
  cases op <;> rfl

@[simp]
theorem edge_apply (op : Infix) (left right : Expr) : (op.apply left right).edge = op.level := by
  cases op <;> rfl

/-- What binds more tightly than a level on its left side leaves that level to others on its
right side. -/
theorem le_edge_of_lt_floor {e : Expr} {level : Nat} (h : level < e.floor) (hlevel : level ≤ 40) :
    level ≤ e.edge := by
  cases e with
  | unary op e => cases op <;> simp only [floor, edge] at * <;> omega
  | _ =>
    simp only [floor, edge] at *
    omega

/-- The type of a cast is read back from its one word. -/
def ReadsBack (type : DataType) : Prop :=
  ∀ (n : Grammar.Nested) (left : Nat) (rest : List Lexeme),
    rest.head?.map Lexeme.token = some (.symbol .rparen) →
      Grammar.dataType n (⟨.ofWord type.sql, left⟩ :: rest) = .ok (type, rest)

/-- The expressions that a filter can write and whose tokens group as they do. -/
inductive Grouped : Expr → Prop
  | column {parts : List Ident} (hparts : parts ≠ []) : Grouped (column parts)
  | number (n : Numeral) : Grouped (literal (.number n false))
  | string (text : String) : Grouped (literal (.string .plain text))
  | boolean (value : Bool) : Grouped (literal (.boolean value))
  | null : Grouped (literal .null)
  | nested {e : Expr} (h : Grouped e) : Grouped (nested e)
  | not {e : Expr} (h : Grouped e) (hfloor : 15 < e.floor) : Grouped (unary .not e)
  | sign {op : UnaryOp} {e : Expr} (hop : op ≠ .not) (h : Grouped e) (hfloor : 40 < e.floor) :
    Grouped (unary op e)
  | operator (op : Infix) {left right : Expr} (hl : Grouped left) (hr : Grouped right)
    (hedge : op.level ≤ left.edge) (hfloor : op.level < right.floor) : Grouped (op.apply left right)
  | isNull {e : Expr} {negated : Bool} (h : Grouped e) (hedge : 17 ≤ e.edge) :
    Grouped (isNull e negated)
  | inList {e first : Expr} {others : List Expr} {negated : Bool} (h : Grouped e)
    (hedge : 20 ≤ e.edge) (hitems : ∀ item ∈ first :: others, Grouped item) :
    Grouped (inList e first others negated)
  | between {e low high : Expr} {negated : Bool} (h : Grouped e) (hedge : 20 ≤ e.edge)
    (hl : Grouped low) (hlow : 20 < low.floor) (hh : Grouped high) (hhigh : 20 < high.floor) :
    Grouped (between e low high negated)
  | like {e pattern : Expr} {negated ignoreCase : Bool} (h : Grouped e) (hedge : 19 ≤ e.edge)
    (hp : Grouped pattern) (hpattern : 19 < pattern.floor) :
    Grouped (like e pattern negated ignoreCase)
  | cast {e : Expr} {type : DataType} (h : Grouped e) (htype : ReadsBack type) :
    Grouped (cast .function e type)
  | call {name : List Ident} {args : List Expr} (hname : name ≠ [])
    (hargs : ∀ arg ∈ args, Grouped arg) : Grouped (call name args)

theorem grouped_left {op : Infix} {left right : Expr} (h : Grouped (op.apply left right)) :
    Grouped left ∧ op.level ≤ left.edge := by
  generalize heq : op.apply left right = whole at h
  cases h with
  | operator inner hl hr hedge hfloor =>
    cases op <;> cases inner <;> cases heq <;> exact ⟨hl, hedge⟩
  | _ => cases op <;> cases heq

/-! ## Putting expressions together -/

/-- An expression with an operator and an operand set behind it: they go to the last operand as long
as that binds the operator more tightly. -/
def graft (op : Infix) (left right : Expr) : Expr :=
  if op.level ≤ left.edge then op.apply left right
  else
    match left with
    | unary sign e => unary sign (graft op e right)
    | binary inner l r => binary inner l (graft op r right)
    | logical inner l r => logical inner l (graft op r right)
    | like e pattern negated ignoreCase => like e (graft op pattern right) negated ignoreCase
    | between e low high negated => between e low (graft op high right) negated
    | left => op.apply left right

/-- Two expressions with an operator between them: the operators on the left side of the second one
that do not bind more tightly come after it. -/
def attach (op : Infix) (left : Expr) : Expr → Expr
  | binary inner l r =>
    if op.level < (binary inner l r).floor then graft op left (binary inner l r)
    else graft (.binary inner) (attach op left l) r
  | logical inner l r =>
    if op.level < (logical inner l r).floor then graft op left (logical inner l r)
    else graft (.logical inner) (attach op left l) r
  | right => graft op left right

/-! ## Last operands -/

/-- The constructors whose last argument is open to operators behind it. -/
inductive Opening : (Expr → Expr) → Prop
  | unary (op : UnaryOp) : Opening (unary op)
  | binary (op : BinaryOp) (left : Expr) : Opening (binary op left)
  | logical (op : LogicalOp) (left : Expr) : Opening (logical op left)
  | like (e : Expr) (negated ignoreCase : Bool) :
    Opening fun pattern ↦ like e pattern negated ignoreCase
  | between (e low : Expr) (negated : Bool) : Opening fun high ↦ between e low high negated

namespace Opening

variable {fill : Expr → Expr}

theorem floor_eq (h : Opening fill) (e e' : Expr) : (fill e).floor = (fill e').floor := by
  cases h with
  | unary op => cases op <;> rfl
  | _ => rfl

theorem edge_eq (h : Opening fill) (e e' : Expr) : (fill e).edge = (fill e').edge := by
  cases h with
  | unary op => cases op <;> rfl
  | _ => rfl

theorem exists_tokens (h : Opening fill) : ∃ front, ∀ e, (fill e).tokens = front ++ e.tokens := by
  cases h with
  | unary op => exact ⟨[unaryToken op], fun e ↦ by rw [tokens]; rfl⟩
  | binary op left =>
    exact ⟨left.tokens ++ [(Infix.binary op).token], fun e ↦ by rw [tokens]; simp⟩
  | logical op left =>
    exact ⟨left.tokens ++ [(Infix.logical op).token], fun e ↦ by rw [tokens]; simp⟩
  | like e negated ignoreCase =>
    exact ⟨e.tokens ++ notTokens negated ++ [likeToken ignoreCase], fun p ↦ by
      rw [tokens]; simp⟩
  | between e low negated =>
    exact ⟨e.tokens ++ notTokens negated ++ keyToken "BETWEEN" "BETWEEN" :: low.tokens ++
      [keyToken "AND" "AND"], fun high ↦ by rw [tokens]; simp⟩

/-- The last operand binds more tightly than what the whole leaves to it. -/
theorem lt_floor (h : Opening fill) {e : Expr} (hg : Grouped (fill e)) :
    Grouped e ∧ (fill e).edge < e.floor := by
  generalize heq : fill e = whole at hg
  cases hg with
  | not hg hfloor => cases h <;> cases heq; exact ⟨hg, hfloor⟩
  | sign hop hg hfloor =>
    rename_i op e
    cases h <;> cases heq
    cases op <;> first
      | exact absurd rfl hop
      | exact ⟨hg, hfloor⟩
  | operator op hl hr hedge hfloor => cases op <;> cases h <;> cases heq <;> exact ⟨hr, hfloor⟩
  | between hg hedge hl hlow hh hhigh => cases h <;> cases heq; exact ⟨hh, hhigh⟩
  | like hg hedge hp hpattern => cases h <;> cases heq; exact ⟨hp, hpattern⟩
  | _ => cases h <;> cases heq

/-- The last operand can be replaced by any other that binds tightly enough. -/
theorem grouped (h : Opening fill) {e e' : Expr} (hg : Grouped (fill e)) (he' : Grouped e')
    (hfloor' : (fill e).edge < e'.floor) : Grouped (fill e') := by
  generalize heq : fill e = whole at hg hfloor'
  cases hg with
  | not hg hfloor => cases h <;> cases heq; exact .not he' hfloor'
  | sign hop hg hfloor =>
    rename_i op e
    cases h <;> cases heq
    cases op <;> first
      | exact absurd rfl hop
      | exact .sign hop he' hfloor'
  | operator op hl hr hedge hfloor =>
    cases op with
    | binary op => cases h <;> cases heq; exact .operator (.binary op) hl he' hedge hfloor'
    | logical op => cases h <;> cases heq; exact .operator (.logical op) hl he' hedge hfloor'
  | between hg hedge hl hlow hh hhigh =>
    cases h <;> cases heq; exact .between hg hedge hl hlow he' hfloor'
  | like hg hedge hp hpattern => cases h <;> cases heq; exact .like hg hedge he' hfloor'
  | _ => cases h <;> cases heq

end Opening

/-! ## Grafts -/

/-- A graft on an expression is the operator applied to it, or a graft on its last operand. -/
theorem graft_induction (op : Infix) {motive : Expr → Prop}
    (apply : ∀ left, op.level ≤ left.edge → motive left)
    (fill : ∀ fill e, Opening fill → (fill e).edge < op.level → motive e → motive (fill e))
    (left : Expr) : motive left := by
  by_cases h : op.level ≤ left.edge
  · exact apply left h
  · have hlt : left.edge < op.level := by omega
    have hop := op.level_le
    match left with
    | unary sign e => exact fill _ e (.unary sign) hlt (graft_induction op apply fill e)
    | binary inner l r => exact fill _ r (.binary inner l) hlt (graft_induction op apply fill r)
    | logical inner l r => exact fill _ r (.logical inner l) hlt (graft_induction op apply fill r)
    | like e pattern negated ignoreCase =>
      exact fill _ pattern (.like e negated ignoreCase) hlt (graft_induction op apply fill pattern)
    | between e low high negated =>
      exact fill _ high (.between e low negated) hlt (graft_induction op apply fill high)
    | column _ | literal _ | nested _ | isNull _ _ | inList _ _ _ _ | cast _ _ _ | call _ _
    | subquery _ _ | other _ _ | abridged _ _ _ =>
      simp only [edge] at hlt
      omega

theorem graft_of_le {op : Infix} {left : Expr} (h : op.level ≤ left.edge) (right : Expr) :
    graft op left right = op.apply left right := by
  cases left <;> simp only [graft, h, if_true]

theorem graft_fill {op : Infix} {fill : Expr → Expr} {e : Expr} (hf : Opening fill)
    (h : (fill e).edge < op.level) (right : Expr) :
    graft op (fill e) right = fill (graft op e right) := by
  have hnot : ¬ op.level ≤ (fill e).edge := by omega
  cases hf <;> simp only [graft, hnot, if_false]

/-- A graft keeps the left side of what it does not stand on. -/
theorem floor_graft (op : Infix) (left right : Expr) :
    (graft op left right).floor =
      if op.level ≤ left.edge then min op.level left.floor else left.floor := by
  induction left using graft_induction op with
  | apply left h => rw [graft_of_le h, floor_apply, if_pos h]
  | fill fill e hf h _ =>
    rw [graft_fill hf h, if_neg (by omega)]
    exact hf.floor_eq _ _

theorem edge_graft (op : Infix) (left right : Expr) :
    (graft op left right).edge = min op.level left.edge := by
  induction left using graft_induction op with
  | apply left h => rw [graft_of_le h, edge_apply, Nat.min_eq_left h]
  | fill fill e hf h _ =>
    rw [graft_fill hf h, hf.edge_eq _ e]
    omega

theorem tokens_graft (op : Infix) (left right : Expr) :
    (graft op left right).tokens = left.tokens ++ op.token :: right.tokens := by
  induction left using graft_induction op with
  | apply left h => rw [graft_of_le h, tokens_apply]
  | fill fill e hf h ih =>
    obtain ⟨front, hfront⟩ := hf.exists_tokens
    rw [graft_fill hf h, hfront, hfront, ih, List.append_assoc]

/-- Grafts group. -/
theorem Grouped.graft {op : Infix} {left right : Expr} (hl : Grouped left) (hr : Grouped right)
    (hfloor : op.level < right.floor) : Grouped (graft op left right) := by
  induction left using graft_induction op with
  | apply left h =>
    rw [graft_of_le h]
    exact .operator op hl hr h hfloor
  | fill fill e hf h ih =>
    obtain ⟨he, hlt⟩ := hf.lt_floor hl
    rw [graft_fill hf h]
    refine hf.grouped hl (ih he) ?_
    rw [floor_graft]
    split <;> omega

/-! ## Attachments -/

/-- On the left side of an expression, all that does not bind more tightly than an operator are
operators between two operands, of its level or below. -/
inductive Loose (op : Infix) : Expr → Prop
  | tight {e : Expr} (h : op.level < e.floor) : Loose op e
  | operator (inner : Infix) {left right : Expr} (hl : Loose op left) (h : inner.level ≤ op.level) :
    Loose op (inner.apply left right)

/-- Putting two expressions together keeps the second one whole if it binds more tightly. -/
theorem attach_of_lt {op : Infix} {right : Expr} (h : op.level < right.floor) (left : Expr) :
    attach op left right = graft op left right := by
  cases right <;> simp only [attach, h, if_true]

theorem attach_operator {op inner : Infix} (h : inner.level ≤ op.level) (left l r : Expr) :
    attach op left (inner.apply l r) = graft inner (attach op left l) r := by
  have hnot : ¬ op.level < (inner.apply l r).floor := by
    rw [floor_apply]
    omega
  cases inner <;>
    simp only [Infix.apply, Infix.operator, Grammar.Operator.apply, attach] at hnot ⊢ <;>
    simp only [hnot, if_false]

theorem attach_of_le {op : Infix} {left right : Expr} (hedge : op.level ≤ left.edge)
    (hfloor : op.level < right.floor) : attach op left right = op.apply left right := by
  rw [attach_of_lt hfloor, graft_of_le hedge]

variable {op : Infix} {left right : Expr}

theorem tokens_attach (hr : Loose op right) :
    (attach op left right).tokens = left.tokens ++ op.token :: right.tokens := by
  induction hr with
  | tight h => rw [attach_of_lt h, tokens_graft]
  | operator inner hl h ih => rw [attach_operator h, tokens_graft, ih, tokens_apply]; simp

theorem Grouped.attach (hloose : Loose op right) (hl : Grouped left) (hr : Grouped right) :
    Grouped (attach op left right) := by
  induction hloose with
  | tight h =>
    rw [attach_of_lt h]
    exact hl.graft hr h
  | operator inner hloose h ih =>
    rename_i l r
    rw [attach_operator h]
    have happly : Opening (inner.apply l) := by
      cases inner with
      | binary op => exact .binary op l
      | logical op => exact .logical op l
    obtain ⟨hgr, hfloor⟩ := happly.lt_floor hr
    rw [edge_apply] at hfloor
    exact (ih (grouped_left hr).1).graft hgr hfloor

theorem le_floor_attach {level : Nat} (hloose : Loose op right) (hop : level ≤ op.level)
    (hl : level ≤ left.floor) (hr : level ≤ right.floor) :
    level ≤ (attach op left right).floor := by
  induction hloose with
  | tight h =>
    rw [attach_of_lt h, floor_graft]
    split <;> omega
  | operator inner hloose h ih =>
    rw [floor_apply] at hr
    have hrest := ih (by omega)
    rw [attach_operator h, floor_graft]
    split <;> omega

theorem le_edge_attach {level : Nat} (hloose : Loose op right) (hop : level ≤ op.level)
    (hl : level ≤ left.edge) (hr : level ≤ right.floor) :
    level ≤ (attach op left right).edge := by
  induction hloose with
  | tight h =>
    rw [attach_of_lt h, edge_graft]
    omega
  | operator inner hloose h ih =>
    rw [floor_apply] at hr
    have hrest := ih (by omega)
    rw [attach_operator h, edge_graft]
    omega

/-- A chain stays a chain. -/
theorem Loose.attach (hl : Loose op left) (hr : Loose op right) (hedge : op.level ≤ left.edge)
    (hfloor : op.level ≤ right.floor) : Loose op (attach op left right) := by
  induction hr with
  | tight h =>
    rw [attach_of_le hedge h]
    exact .operator op hl (Nat.le_refl _)
  | operator inner hloose h ih =>
    rename_i l r
    rw [floor_apply] at hfloor
    have hl' := ih (by omega)
    have hinner : inner.level ≤ (Expr.attach op left l).edge :=
      le_edge_attach hloose h (by omega) (by omega)
    rw [attach_operator h, graft_of_le hinner]
    exact .operator inner hl' h

end Expr

end Funnel.Sql
