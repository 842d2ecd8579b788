import Mathlib
import Funnel.Filter.Parse
import Funnel.Proofs.Ends

/-!
# Forms That Are No Columns

A filter that is a single column comes from a name, which may stand in parentheses (`Expr.name?`).
None of the forms with words of their own, of the operators and of the literals is one, whatever
their parts are (`FindsNoColumn`).
-/

namespace Funnel

open Sql (Expr Phrase Ident)

/-! ## Columns of filters -/

/-- The name that a filter keeps of an expression, if it is a column. -/
def Sql.Expr.name? : Expr → Option (List Ident)
  | column parts => some parts
  | nested e => e.name?
  | abridged _ _ kept => kept.name?
  | _ => none

theorem Filter.ofExpr_literal_ne_column (v : Sql.Literal) (ref : ColumnRef) :
    ofExpr (.literal v) ≠ .column ref := by
  cases v with
  | string style text => cases style <;> simp [ofExpr]
  | _ => simp [ofExpr]

theorem Filter.exists_name_of_ofExpr {ref : ColumnRef} :
    ∀ e : Expr, ofExpr e = .column ref → ∃ parts, e.name? = some parts ∧ ref = .ofParts parts
  | .column parts, h => ⟨parts, rfl, (Filter.column.inj h).symm⟩
  | .nested e, h => exists_name_of_ofExpr e h
  | .abridged _ _ kept, h => exists_name_of_ofExpr kept h
  | .literal v, h => absurd h (ofExpr_literal_ne_column v ref)

namespace Sql.Grammar

open Rule

variable {α β : Type}

/-! ## Rules and what they find -/

/-- Whatever the rule finds has the property. -/
def Gives (p : α → Prop) (r : Rule α) : Prop := ∀ ts a rest, r ts = .ok (a, rest) → p a

namespace Gives

variable {p : α → Prop} {q : β → Prop}

theorem pure {a : α} (h : p a) : Gives p (Pure.pure a) := by
  rintro ts b rest heq
  obtain ⟨rfl, -⟩ := Prod.mk.inj (Except.ok.inj heq)
  exact h

theorem bind {r : Rule β} {f : β → Rule α} (hr : Gives q r) (hf : ∀ b, q b → Gives p (f b)) :
    Gives p (r >>= f) := by
  intro ts a rest h
  obtain ⟨b, ts', hb, ha⟩ := of_bind_ok h
  exact hf b (hr ts b ts' hb) ts' a rest ha

/-- What comes last decides. -/
theorem last {r : Rule β} {f : β → Rule α} (hf : ∀ b, Gives p (f b)) : Gives p (r >>= f) :=
  .bind (fun _ _ _ _ ↦ trivial) fun b (_ : True) ↦ hf b

theorem expected (what : Expectation) : Gives p (Rule.expected what) := by
  rintro ts a rest ⟨⟩

theorem fail (e : SyntaxError) : Gives p (Rule.fail e) := by
  rintro ts a rest ⟨⟩

theorem ite {r s : Rule α} {c : Prop} [Decidable c] (hr : Gives p r) (hs : Gives p s) :
    Gives p (if c then r else s) := by
  split <;> assumption

theorem parenthesized {r : Rule α} (hr : Gives p r) : Gives p (parenthesized r) :=
  .last fun _ ↦ .bind hr fun _ ha ↦ .last fun _ ↦ .pure ha

theorem attempt {r : Rule α} (hr : Gives p r) :
    Gives (fun found ↦ ∀ a ∈ found, p a) (attempt r) := by
  intro ts found rest h a ha
  unfold Rule.attempt at h
  split at h
  · next b rest' hrun =>
    obtain ⟨rfl, -⟩ := Prod.mk.inj (Except.ok.inj h)
    obtain rfl : b = a := by simpa using ha
    exact hr ts b rest' hrun
  · cases h
  · obtain ⟨rfl, -⟩ := Prod.mk.inj (Except.ok.inj h)
    simp at ha

end Gives

/-- The rule finds no column. -/
def FindsNoColumn (r : Rule Expr) : Prop := Gives (fun e ↦ e.name? = none) r

variable (n : Nested)

/-! ## Calls and intervals -/

theorem findsNoColumn_interval : FindsNoColumn (interval n) :=
  .last fun _ ↦ .last fun _ ↦ .last fun _ ↦
    .ite (.last fun _ ↦ .pure rfl) (.last fun _ ↦ .pure rfl)

theorem findsNoColumn_typedLiteral : FindsNoColumn (typedLiteral n) :=
  .last fun type ↦ by
    split
    · exact findsNoColumn_interval n
    · exact .fail _
    · exact .last fun _ ↦ .pure rfl

theorem name?_toExpr {c : Call} (h : ∀ e ∈ c.plain?, e.name? = none) : c.toExpr.name? = none := by
  unfold Call.toExpr
  split
  · rfl
  · next e he =>
    split
    · exact h e he
    · exact h e he

theorem gives_call (name : List Ident) :
    Gives (fun c ↦ ∀ e ∈ c.plain?, e.name? = none) (call n name) := by
  have hplain : ∀ (plain : Bool) (args : Arguments),
      ∀ e ∈ if plain then args.plain?.map (Expr.call name) else none, e.name? = none := by
    intro plain args e he
    cases plain with
    | true =>
      obtain ⟨es, -, rfl⟩ := Option.map_eq_some_iff.1 he
      rfl
    | false => simp at he
  refine .last fun lists ↦ .last fun group ↦ .ite ?_ ?_ <;>
    exact .last fun nulls ↦ .last fun window ↦ .pure (hplain _ _)

theorem findsNoColumn_call (name : List Ident) :
    FindsNoColumn (do return (← call n name).toExpr) :=
  .bind (gives_call n name) fun _ h ↦ .pure (name?_toExpr h)

theorem findsNoColumn_currentValue (name : Ident) : FindsNoColumn (currentValue n name) :=
  .last fun _ ↦ .ite
    (.last fun args ↦ .pure <| name?_toExpr fun e he ↦ by
      obtain ⟨es, -, rfl⟩ := Option.map_eq_some_iff.1 he
      rfl)
    (.pure rfl)

/-! ## Forms -/

theorem findsNoColumn_caseExpression : FindsNoColumn (caseExpression n) :=
  .last fun _ ↦ .last fun _ ↦ .last fun _ ↦ .last fun _ ↦ .last fun _ ↦ .pure rfl

theorem findsNoColumn_existsForm (negated : Bool) : FindsNoColumn (existsForm n negated) :=
  .last fun _ ↦ .pure rfl

theorem findsNoColumn_notExpression : FindsNoColumn (notExpression n) :=
  .last fun _ ↦ .ite (findsNoColumn_existsForm n true) (.last fun _ ↦ .pure rfl)

theorem findsNoColumn_castExpression (word : Keyword) : FindsNoColumn (castExpression n word) :=
  .parenthesized <| .last fun _ ↦ .last fun _ ↦ .last fun _ ↦ .last fun _ ↦
    .ite (.pure rfl) (.ite (.pure rfl) (.pure rfl))

theorem findsNoColumn_convertExpression (word : Keyword) :
    FindsNoColumn (convertExpression n word) :=
  .parenthesized <| .last fun _ ↦ .last fun _ ↦ .ite (.last fun _ ↦ .pure rfl) <|
    .last fun _ ↦ .last fun _ ↦ .last fun _ ↦ .pure rfl

theorem findsNoColumn_extractExpression : FindsNoColumn (extractExpression n) :=
  .parenthesized <| .last fun _ ↦ .last fun _ ↦ .last fun _ ↦ .pure rfl

theorem findsNoColumn_roundingExpression (word : Keyword) :
    FindsNoColumn (roundingExpression n word) :=
  .parenthesized <| .last fun _ ↦ .last fun _ ↦ .pure rfl

theorem findsNoColumn_positionExpression (name : Ident) :
    FindsNoColumn (positionExpression n name) := by
  refine .bind (Gives.attempt (p := fun e ↦ e.name? = none) <| .parenthesized <|
    .last fun _ ↦ .last fun _ ↦ .last fun _ ↦ .pure rfl) fun found h ↦ ?_
  cases found with
  | some e => exact .pure (h e rfl)
  | none => exact findsNoColumn_call n [name]

theorem findsNoColumn_substringExpression : FindsNoColumn (substringExpression n) :=
  .parenthesized <| .last fun _ ↦ .last fun _ ↦ .last fun _ ↦ .last fun _ ↦ .pure rfl

theorem findsNoColumn_overlayExpression : FindsNoColumn (overlayExpression n) :=
  .parenthesized <| .last fun _ ↦ .last fun _ ↦ .last fun _ ↦ .last fun _ ↦ .last fun _ ↦
    .last fun _ ↦ .pure rfl

theorem findsNoColumn_trimExpression : FindsNoColumn (trimExpression n) :=
  .parenthesized <| .last fun _ ↦ .last fun _ ↦ .last fun _ ↦ .ite (.last fun _ ↦ .pure rfl) <|
    .last fun _ ↦ .ite (.last fun _ ↦ .pure rfl) (.pure rfl)

theorem findsNoColumn_matchExpression : FindsNoColumn matchExpression :=
  .last fun _ ↦ .last fun _ ↦ .parenthesized <| .last fun _ ↦ .last fun _ ↦ .pure rfl

theorem findsNoColumn_arrayExpression (word : String) :
    FindsNoColumn (arrayExpression n word) :=
  .last fun _ ↦ .last fun _ ↦ .pure rfl

theorem findsNoColumn_arrayQuery (name : Ident) : FindsNoColumn (arrayQuery n name) :=
  .last fun _ ↦ .pure rfl

theorem findsNoColumn_structExpression (start : Option Nat) :
    FindsNoColumn (structExpression n start) :=
  .last fun _ ↦ .last fun _ ↦ .ite (.last fun _ ↦ .last fun _ ↦ .last fun _ ↦ .pure rfl)
    (.last fun _ ↦ .pure rfl)

theorem findsNoColumn_mapExpression : FindsNoColumn (mapExpression n) :=
  .last fun _ ↦ .pure rfl

theorem findsNoColumn_bracesExpression : FindsNoColumn (bracesExpression n) := by
  refine .bind (.attempt (.last fun _ ↦ .last fun _ ↦ .last fun name ↦ gives_call n name))
    fun found h ↦ ?_
  cases found with
  | some c => exact .last fun _ ↦ .pure (name?_toExpr (h c rfl))
  | none => exact .last fun _ ↦ .pure rfl

/-- No keyword opens a column. -/
theorem gives_keywordForm (start : Option Nat) (name : Ident) (k : Keyword) :
    Gives (fun found ↦ ∀ e ∈ found, e.name? = none) (keywordForm n start name k) := by
  have hsome : ∀ {e : Expr}, e.name? = none → ∀ e' ∈ some e, e'.name? = none := by
    rintro e he _ ⟨⟩
    exact he
  have hfound : ∀ {r : Rule Expr}, FindsNoColumn r →
      Gives (fun found ↦ ∀ e ∈ found, e.name? = none) (do return some (← r)) :=
    fun h ↦ .bind h fun _ he ↦ .pure (hsome he)
  have hnone : Gives (fun found : Option Expr ↦ ∀ e ∈ found, e.name? = none) (pure none) :=
    .pure (by simp)
  unfold keywordForm
  split
  · exact .pure (hsome rfl)
  · exact .pure (hsome rfl)
  · exact .pure (hsome rfl)
  · exact .pure (hsome rfl)
  · exact .pure (hsome rfl)
  · exact .pure (hsome rfl)
  · exact .pure (hsome rfl)
  · exact hfound (findsNoColumn_currentValue n name)
  · exact hfound (findsNoColumn_currentValue n name)
  · exact hfound (findsNoColumn_currentValue n name)
  · exact hfound (findsNoColumn_currentValue n name)
  · exact hfound (findsNoColumn_currentValue n name)
  · exact hfound (findsNoColumn_caseExpression n)
  · exact hfound (findsNoColumn_convertExpression n _)
  · exact hfound (findsNoColumn_convertExpression n _)
  · exact hfound (findsNoColumn_castExpression n _)
  · exact hfound (findsNoColumn_castExpression n _)
  · exact hfound (findsNoColumn_castExpression n _)
  · exact hfound (findsNoColumn_existsForm n false)
  · exact hfound (findsNoColumn_extractExpression n)
  · exact hfound (findsNoColumn_roundingExpression n _)
  · exact hfound (findsNoColumn_roundingExpression n _)
  · exact .last fun _ ↦ .ite (hfound (findsNoColumn_positionExpression n name)) hnone
  · exact hfound (findsNoColumn_substringExpression n)
  · exact hfound (findsNoColumn_overlayExpression n)
  · exact hfound (findsNoColumn_trimExpression n)
  · exact hfound (findsNoColumn_interval n)
  · exact .last fun _ ↦ .ite (hfound (findsNoColumn_arrayExpression n _)) <|
      .last fun _ ↦ .ite (hfound (findsNoColumn_arrayQuery n name)) hnone
  · exact hfound (findsNoColumn_notExpression n)
  · exact hfound findsNoColumn_matchExpression
  · exact hfound (findsNoColumn_structExpression n start)
  · exact .ite (.last fun _ ↦ .pure (hsome rfl)) hnone
  · exact .last fun _ ↦ .ite (hfound (findsNoColumn_mapExpression n)) hnone
  · exact hnone

/-! ## Operators -/

theorem name?_apply (op : Operator) (left right : Expr) : (op.apply left right).name? = none := by
  cases op <;> rfl

theorem name?_quantified (front : Phrase) (right : Expr) :
    (quantified front right).name? = none := by
  unfold quantified
  split <;> rfl

theorem findsNoColumn_rightSide (left : Expr) (op : Operator) (level : Nat)
    (place : Option Nat) : FindsNoColumn (rightSide n left op level place) := by
  refine .last fun found ↦ ?_
  cases found with
  | none => exact .last fun _ ↦ .pure (name?_apply _ _ _)
  | some k =>
    have hright : ∀ right : Rule Expr, FindsNoColumn (do
        let right ← right
        if !op.isComparison then fail (.notAComparison op.text (place.getD 0))
        return quantified (.concat [.expr left, .text (" " ++ op.text ++ " " ++ k)]) right) :=
      fun _ ↦ .last fun _ ↦ .ite (.last fun _ ↦ .pure (name?_quantified _ _))
        (.pure (name?_quantified _ _))
    refine .last fun paren ↦ .ite (.last fun _ ↦ .last fun _ ↦ ?_) (.last fun _ ↦ ?_) <;>
      exact .ite (hright _) (hright _)

theorem findsNoColumn_isExpression (left : Expr) : FindsNoColumn (isExpression n left) := by
  refine .last fun _ ↦ .ite (.pure rfl) <| .last fun _ ↦ .ite (.pure rfl) <| .last fun found ↦ ?_
  cases found with
  | some ks => exact .pure rfl
  | none =>
    exact .last fun _ ↦ .ite (.last fun _ ↦ .pure rfl) <| .last fun _ ↦
      .ite (.last fun _ ↦ .pure rfl) (.expected _)

theorem findsNoColumn_inExpression (left : Expr) (negated : Bool) :
    FindsNoColumn (inExpression n left negated) := by
  refine .last fun _ ↦ .ite (.last fun _ ↦ .pure rfl) <| .last fun _ ↦
    .bind (q := fun e ↦ e.name? = none) ?_ fun _ he ↦ .last fun _ ↦ .pure he
  refine .last fun _ ↦ .ite (.last fun _ ↦ .pure rfl) (.last fun items ↦ ?_)
  cases items with
  | nil => exact .expected _
  | cons first others => exact .pure rfl

theorem findsNoColumn_betweenExpression (left : Expr) (negated : Bool) :
    FindsNoColumn (betweenExpression n left negated) :=
  .last fun _ ↦ .last fun _ ↦ .last fun _ ↦ .pure rfl

theorem findsNoColumn_likeExpression (left : Expr) (negated ignoreCase : Bool) :
    FindsNoColumn (likeExpression n left negated ignoreCase) := by
  refine .last fun any ↦ .last fun _ ↦ .last fun _ ↦ .ite (.pure rfl) (.pure ?_)
  cases any <;> rfl

theorem findsNoColumn_wordInfix (left : Expr) : FindsNoColumn (wordInfix n left) := by
  refine .last fun negated ↦ .last fun found ↦ ?_
  split
  · exact findsNoColumn_inExpression n left negated
  · exact findsNoColumn_betweenExpression n left negated
  · exact findsNoColumn_likeExpression n left negated false
  · exact findsNoColumn_likeExpression n left negated true
  · exact .ite (.last fun _ ↦ .last fun _ ↦ .pure rfl) (.last fun _ ↦ .pure rfl)
  · exact .last fun _ ↦ .ite (.last fun _ ↦ .last fun _ ↦ .pure rfl) (.expected _)

theorem findsNoColumn_subscriptExpression (left : Expr) :
    FindsNoColumn (subscriptExpression n left) := by
  refine .last fun low ↦ .last fun _ ↦ .ite (.pure rfl) (.ite (.last fun _ ↦ ?_) ?_) <;>
    exact .last fun _ ↦ .ite (.pure rfl) <| .last fun _ ↦ .last fun _ ↦ .ite (.pure rfl) <|
      .last fun _ ↦ .last fun _ ↦ .ite (.pure rfl) <| .last fun _ ↦ .last fun _ ↦ .pure rfl

/-- What follows an operand makes no column of it. -/
theorem findsNoColumn_infixExpression (left : Expr) (level : Nat) :
    FindsNoColumn (infixExpression n left level) := by
  refine .last fun place ↦ .last fun next ↦ ?_
  split
  · refine .last fun _ ↦ ?_
    split
    · exact findsNoColumn_rightSide n left _ level place
    · split
      · exact .last fun _ ↦ .pure rfl
      · exact findsNoColumn_subscriptExpression n left
      · exact .fail _
      · exact .fail _
  · split
    · exact .last fun _ ↦ findsNoColumn_rightSide n left _ level place
    · split
      · exact .last fun _ ↦ findsNoColumn_isExpression n left
      · exact .last fun _ ↦ .last fun _ ↦ .last fun _ ↦ .pure rfl
      · exact .last fun _ ↦ .last fun _ ↦ findsNoColumn_rightSide n left _ level place
      · exact .fail _
      · exact findsNoColumn_wordInfix n left
  · exact .expected _

end Sql.Grammar

end Funnel
