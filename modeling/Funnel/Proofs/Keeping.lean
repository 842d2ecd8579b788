import Mathlib
import Funnel.Proofs.Names
import Funnel.Proofs.Reading

/-!
# What a Filter Keeps of an Expression

Two expressions may be the same filter.  Of most expressions a filter forgets little: parentheses,
the suffix of a number and the notation of a cast, all of which `Expr.normal` takes away.  It
forgets more of an abridged form; and it has only the text of a type and of the name of a function,
which another type or name may share.  Expressions without such parts (`Expr.isExact`) are the same
filter exactly when they are the same up to `normal` (`ofExpr_eq_ofExpr_iff`): the expression is
found again from its filter (`source_ofExpr`).
-/

namespace Funnel

open Sql (Expr DataType Ident)
open Sql.Grammar (dataType nested maxDepth)

namespace Sql

/-! ## Types behind their texts -/

/-- The type that a text is read as in a cast. -/
def DataType.read? (text : String) : Option DataType :=
  match Lexer.lex text.toList with
  | .error _ => none
  | .ok ts =>
    match dataType (nested false maxDepth) ts with
    | .ok (type, []) => some type
    | _ => none

/-- What is written for a type is read as the type again. -/
def DataType.isReadBack (type : DataType) : Bool := DataType.read? type.sql == some type

namespace Expr

/-! ## Spellings of one expression -/

mutual

/-- The expression in one of its spellings: no parentheses around what a filter understands, no
suffixes of numbers, and the word `CAST` for casts. -/
def normal : Expr → Expr
  | column parts => column parts
  | literal (.number n _) => literal (.number n false)
  | literal v => literal v
  | nested e => e.normal
  | unary op e => unary op e.normal
  | binary op left right => binary op left.normal right.normal
  | logical op left right => logical op left.normal right.normal
  | isNull e negated => isNull e.normal negated
  | inList e first others negated => inList e.normal first.normal (normalAll others) negated
  | between e low high negated => between e.normal low.normal high.normal negated
  | like e pattern negated ignoreCase => like e.normal pattern.normal negated ignoreCase
  | cast _ e type => cast .function e.normal type
  | call name args => call name (normalAll args)
  | subquery wording operands => subquery wording operands
  | other wording operands => other wording operands
  | abridged wording operands kept => abridged wording operands kept

def normalAll : List Expr → List Expr
  | [] => []
  | e :: es => e.normal :: normalAll es

end

mutual

/-- No part of the expression is dropped when it becomes a filter, and no text in the filter
stands for another type or name as well. -/
def isExact : Expr → Bool
  | column _ => true
  | literal _ => true
  | nested e => e.isExact
  | unary _ e => e.isExact
  | binary _ left right => left.isExact && right.isExact
  | logical _ left right => left.isExact && right.isExact
  | isNull e _ => e.isExact
  | inList e first others _ => e.isExact && first.isExact && isExactAll others
  | between e low high _ => e.isExact && low.isExact && high.isExact
  | like e pattern _ _ => e.isExact && pattern.isExact
  | cast _ e type => e.isExact && type.isReadBack
  | call name args => decide (∀ part ∈ name, part.Unescaped) && isExactAll args
  | subquery _ _ => true
  | other _ _ => true
  | abridged _ _ _ => false

def isExactAll : List Expr → Bool
  | [] => true
  | e :: es => e.isExact && isExactAll es

end

end Expr

end Sql

namespace Filter

mutual

/-- All spellings of an expression are the same filter. -/
theorem ofExpr_normal : ∀ e : Expr, ofExpr e.normal = ofExpr e
  | .column _ => rfl
  | .literal v => by cases v <;> rfl
  | .nested e => ofExpr_normal e
  | .unary op e => by rw [Expr.normal, ofExpr, ofExpr_normal e, ofExpr]
  | .binary op left right => by
    rw [Expr.normal, ofExpr, ofExpr_normal left, ofExpr_normal right, ofExpr]
  | .logical op left right => by
    rw [Expr.normal, ofExpr, ofExpr_normal left, ofExpr_normal right, ofExpr]
  | .isNull e negated => by rw [Expr.normal, ofExpr, ofExpr_normal e, ofExpr]
  | .inList e first others negated => by
    rw [Expr.normal, ofExpr, ofExpr_normal e, ofExpr_normal first, ofExprs_normalAll others, ofExpr]
  | .between e low high negated => by
    rw [Expr.normal, ofExpr, ofExpr_normal e, ofExpr_normal low, ofExpr_normal high, ofExpr]
  | .like e pattern negated ignoreCase => by
    rw [Expr.normal, ofExpr, ofExpr_normal e, ofExpr_normal pattern, ofExpr]
  | .cast style e type => by rw [Expr.normal, ofExpr, ofExpr_normal e, ofExpr]
  | .call name args => by rw [Expr.normal, ofExpr, ofExprs_normalAll args, ofExpr]
  | .subquery _ _ => rfl
  | .other _ _ => rfl
  | .abridged _ _ _ => rfl

theorem ofExprs_normalAll : ∀ es : List Expr, ofExprs (Expr.normalAll es) = ofExprs es
  | [] => rfl
  | e :: es => by rw [Expr.normalAll, ofExprs, ofExpr_normal e, ofExprs_normalAll es, ofExprs]

end

/-! ## The expression behind a filter -/

mutual

/-- The expression that a filter was made from, in its normal spelling. -/
noncomputable def source : Filter → Expr
  | column ref => .column (Function.invFun ColumnRef.ofParts ref)
  | value v => .literal v.reading
  | unary op e => .unary op e.source
  | binary op left right => .binary op left.source right.source
  | logical op left right => .logical op left.source right.source
  | isNull e negated => .isNull e.source negated
  | inList e items negated =>
    match sourceAll items with
    | [] => e.source
    | first :: others => .inList e.source first others negated
  | between e low high negated => .between e.source low.source high.source negated
  | like e pattern negated ignoreCase => .like e.source pattern.source negated ignoreCase
  | cast e type => .cast .function e.source ((DataType.read? type).getD .interval)
  | call name args =>
    .call (Function.invFunOn Ident.dottedSql {name | ∀ part ∈ name, part.Unescaped} name)
      (sourceAll args)
  | unsupported e => e

noncomputable def sourceAll : List Filter → List Expr
  | [] => []
  | e :: es => e.source :: sourceAll es

end

theorem source_column (parts : List Ident) :
    (column (.ofParts parts)).source = .column parts := by
  rw [source, Function.leftInverse_invFun ColumnRef.ofParts_injective parts]

theorem source_call {name : List Ident} (h : ∀ part ∈ name, part.Unescaped) (args : List Filter) :
    (call (Ident.dottedSql name) args).source = .call name (sourceAll args) := by
  rw [source, Ident.dottedSql_injOn.leftInvOn_invFunOn h]

theorem source_cast {type : DataType} (h : type.isReadBack = true) (e : Filter) :
    (cast e type.sql).source = .cast .function e.source type := by
  rw [source, eq_of_beq h, Option.getD_some]

mutual

/-- An exact expression is found again from its filter. -/
theorem source_ofExpr : ∀ e : Expr, e.isExact = true → (ofExpr e).source = e.normal
  | .column parts, _ => source_column parts
  | .literal v, _ => by
    cases v with
    | number n long => rw [ofExpr, source, Value.reading_number, Expr.normal]
    | string style text => cases style <;> rfl
    | boolean b => rfl
    | null => rfl
    | placeholder text => rfl
  | .nested e, h => source_ofExpr e h
  | .unary op e, h => by rw [ofExpr, source, source_ofExpr e h, Expr.normal]
  | .binary op left right, h => by
    rw [Expr.isExact, Bool.and_eq_true] at h
    rw [ofExpr, source, source_ofExpr left h.1, source_ofExpr right h.2, Expr.normal]
  | .logical op left right, h => by
    rw [Expr.isExact, Bool.and_eq_true] at h
    rw [ofExpr, source, source_ofExpr left h.1, source_ofExpr right h.2, Expr.normal]
  | .isNull e negated, h => by rw [ofExpr, source, source_ofExpr e h, Expr.normal]
  | .inList e first others negated, h => by
    rw [Expr.isExact, Bool.and_eq_true, Bool.and_eq_true] at h
    obtain ⟨⟨he, hfirst⟩, hothers⟩ := h
    rw [ofExpr, source, sourceAll, source_ofExpr e he, source_ofExpr first hfirst,
      sourceAll_ofExprs others hothers, Expr.normal]
  | .between e low high negated, h => by
    rw [Expr.isExact, Bool.and_eq_true, Bool.and_eq_true] at h
    obtain ⟨⟨he, hlow⟩, hhigh⟩ := h
    rw [ofExpr, source, source_ofExpr e he, source_ofExpr low hlow, source_ofExpr high hhigh,
      Expr.normal]
  | .like e pattern negated ignoreCase, h => by
    rw [Expr.isExact, Bool.and_eq_true] at h
    rw [ofExpr, source, source_ofExpr e h.1, source_ofExpr pattern h.2, Expr.normal]
  | .cast style e type, h => by
    rw [Expr.isExact, Bool.and_eq_true] at h
    rw [ofExpr, source_cast h.2, source_ofExpr e h.1, Expr.normal]
  | .call name args, h => by
    rw [Expr.isExact, Bool.and_eq_true, decide_eq_true_eq] at h
    rw [ofExpr, source_call h.1, sourceAll_ofExprs args h.2, Expr.normal]
  | .subquery _ _, _ => rfl
  | .other _ _, _ => rfl
  | .abridged _ _ _, h => by cases h

theorem sourceAll_ofExprs : ∀ es : List Expr, Expr.isExactAll es = true →
    sourceAll (ofExprs es) = Expr.normalAll es
  | [], _ => rfl
  | e :: es, h => by
    rw [Expr.isExactAll, Bool.and_eq_true] at h
    rw [ofExprs, sourceAll, source_ofExpr e h.1, sourceAll_ofExprs es h.2, Expr.normalAll]

end

/-- Exact expressions are the same filter exactly when they differ in nothing but parentheses, the
suffixes of numbers and the notation of casts. -/
theorem ofExpr_eq_ofExpr_iff {e₁ e₂ : Expr} (h₁ : e₁.isExact = true) (h₂ : e₂.isExact = true) :
    ofExpr e₁ = ofExpr e₂ ↔ e₁.normal = e₂.normal := by
  constructor
  · intro h
    calc e₁.normal
        = (ofExpr e₁).source := (source_ofExpr e₁ h₁).symm
      _ = (ofExpr e₂).source := by rw [h]
      _ = e₂.normal := source_ofExpr e₂ h₂
  · intro h
    calc ofExpr e₁
        = ofExpr e₁.normal := (ofExpr_normal e₁).symm
      _ = ofExpr e₂.normal := by rw [h]
      _ = ofExpr e₂ := ofExpr_normal e₂

/-- Parentheses, a long number and two notations of a cast make no difference.  The word `ANY` in
front of a pattern makes none either, although it is more than spelling. -/
theorem ofExpr_eq_of_spellings :
    let one : Sql.Numeral :=
      ⟨"1", Sql.Numeral.isSpelling_of_allDigits (by decide) (by simp [Sql.Numeral.AllDigits])⟩
    let call : Expr := .call [.plain "f"] [.column [.quoted .back "b.c", .plain "d"]]
    let type : DataType := .known [.text "TEXT"] []
    let e₁ : Expr := .logical .and
      (.binary .eq (.nested (.column [.plain "a"])) (.literal (.number one true)))
      (.nested (.like (.cast .doubleColon call type) (.literal (.string .plain "x")) false false))
    let e₂ : Expr := .logical .and
      (.binary .eq (.column [.plain "a"]) (.literal (.number one false)))
      (.like (.cast .function call type) (.literal (.string .plain "x")) false false)
    parseExpr "(a) = 1L AND (f(`b.c`.d)::TEXT LIKE 'x')" = .ok e₁ ∧
      parseExpr "a = 1 AND CAST(f(`b.c`.d) AS TEXT) LIKE 'x'" = .ok e₂ ∧
      e₁.isExact = true ∧ e₂.isExact = true ∧ ofExpr e₁ = ofExpr e₂ ∧
      parse "a LIKE ANY ('x')" = parse "a LIKE ('x')" ∧
      (parseExpr "a LIKE ANY ('x')").map Expr.normal ≠
        (parseExpr "a LIKE ('x')").map Expr.normal := by
  intro one call type e₁ e₂
  have h₁ : e₁.isExact = true := by decide +kernel
  have h₂ : e₂.isExact = true := by decide +kernel
  have hnormal : e₁.normal = e₂.normal := rfl
  exact ⟨by decide +kernel, by decide +kernel, h₁, h₂, (ofExpr_eq_ofExpr_iff h₁ h₂).2 hnormal,
    by decide +kernel, by decide +kernel⟩

end Filter

end Funnel
