import Mathlib
import Funnel.Filter.Parse
import Funnel.Filter.Render
import Funnel.Proofs.Climbing
import Funnel.Proofs.Lexing

/-!
# Filters That Can Be Written

The filters whose text can be read again: all their nodes are supported, their names are plain
words and their cast types are words that stand for themselves.  A filter that was read has numbers
that are spelled as numbers and lists that are not empty, so only its words need to be plain
(`writable_of_parse`).
-/

namespace Funnel

open Sql (UnaryOp BinaryOp LogicalOp Expr Numeral Keyword Token DataType Ident)
open Sql.Lexer (IsWord)
open Sql.Grammar (dataType nested maxDepth)

/-! ## Words -/

/-- A name without quotes: words with periods between them, none of which is a keyword. -/
def IsPlainName (name : String) : Prop :=
  ∀ part ∈ name.toList.splitOn '.', IsWord part ∧ Keyword.ofWord? (String.ofList part) = none

instance : DecidablePred IsPlainName := fun name ↦
  inferInstanceAs (Decidable (∀ part ∈ name.toList.splitOn '.',
    IsWord part ∧ Keyword.ofWord? (String.ofList part) = none))

/-- A word that is a type by itself and is written as that type. -/
def IsTypeWord (w : String) : Prop :=
  IsWord w.toList ∧ ∃ type, dataType (nested false maxDepth) [⟨.ofWord w, w.length⟩] =
    .ok (type, []) ∧ type.sql = w

namespace Filter

mutual

/-- Columns, functions and types are plain words. -/
def PlainWords : Filter → Prop
  | column ref => ref.sql = ref.name ∧ IsPlainName ref.name
  | value _ => True
  | unary _ e => e.PlainWords
  | binary _ left right => left.PlainWords ∧ right.PlainWords
  | logical _ left right => left.PlainWords ∧ right.PlainWords
  | isNull e _ => e.PlainWords
  | inList e items _ => e.PlainWords ∧ PlainWordsAll items
  | between e low high _ => e.PlainWords ∧ low.PlainWords ∧ high.PlainWords
  | like e pattern _ _ => e.PlainWords ∧ pattern.PlainWords
  | cast e type => e.PlainWords ∧ IsTypeWord type
  | call name args => IsPlainName name ∧ PlainWordsAll args
  | unsupported _ => True

def PlainWordsAll : List Filter → Prop
  | [] => True
  | e :: es => e.PlainWords ∧ PlainWordsAll es

end

mutual

/-- The number of nodes between the root and the deepest leaf. -/
def height : Filter → Nat
  | column _ => 0
  | value _ => 0
  | unary _ e => e.height + 1
  | binary _ left right => max left.height right.height + 1
  | logical _ left right => max left.height right.height + 1
  | isNull e _ => e.height + 1
  | inList e items _ => max e.height (heightAll items) + 1
  | between e low high _ => max e.height (max low.height high.height) + 1
  | like e pattern _ _ => max e.height pattern.height + 1
  | cast e _ => e.height + 1
  | call _ args => heightAll args + 1
  | unsupported _ => 0

def heightAll : List Filter → Nat
  | [] => 0
  | e :: es => max e.height (heightAll es)

end

/-! ## Writable filters -/

/-- The filters that are read again from their text. -/
inductive Writable : Filter → Prop
  | column {ref : ColumnRef} (hsql : ref.sql = ref.name) (hname : IsPlainName ref.name) :
    Writable (column ref)
  | number (n : Numeral) : Writable (value (.number n.text))
  | string (text : String) : Writable (value (.string text))
  | boolean (b : Bool) : Writable (value (.boolean b))
  | null : Writable (value .null)
  | unary (op : UnaryOp) {e : Filter} (h : Writable e) : Writable (unary op e)
  | binary (op : BinaryOp) {left right : Filter} (hl : Writable left) (hr : Writable right) :
    Writable (binary op left right)
  | logical (op : LogicalOp) {left right : Filter} (hl : Writable left) (hr : Writable right) :
    Writable (logical op left right)
  | isNull {e : Filter} (negated : Bool) (h : Writable e) : Writable (isNull e negated)
  | inList {e first : Filter} {others : List Filter} (negated : Bool) (h : Writable e)
    (hitems : ∀ item ∈ first :: others, Writable item) :
    Writable (inList e (first :: others) negated)
  | between {e low high : Filter} (negated : Bool) (h : Writable e) (hl : Writable low)
    (hh : Writable high) : Writable (between e low high negated)
  | like {e pattern : Filter} (negated ignoreCase : Bool) (h : Writable e) (hp : Writable pattern) :
    Writable (like e pattern negated ignoreCase)
  | cast {e : Filter} {type : String} (h : Writable e) (htype : IsTypeWord type) :
    Writable (cast e type)
  | call {name : String} {args : List Filter} (hname : IsPlainName name)
    (hargs : ∀ arg ∈ args, Writable arg) : Writable (call name args)

mutual

theorem writable_ofExpr (e : Expr) (hs : (ofExpr e).supported = true) (hp : (ofExpr e).PlainWords) :
    Writable (ofExpr e) := by
  cases e with
  | column parts =>
    rw [ofExpr] at *
    rw [PlainWords] at hp
    exact .column hp.1 hp.2
  | literal v =>
    cases v with
    | number n long => rw [ofExpr]; exact .number n
    | string style text => cases style <;> first
      | exact .string text
      | simp [ofExpr, supported] at hs
    | boolean b => exact .boolean b
    | null => exact .null
    | placeholder text => simp [ofExpr, supported] at hs
  | nested e =>
    rw [ofExpr] at *
    exact writable_ofExpr e hs hp
  | unary op e =>
    rw [ofExpr] at *
    rw [supported] at hs
    rw [PlainWords] at hp
    exact .unary op (writable_ofExpr e hs hp)
  | binary op l r =>
    rw [ofExpr] at *
    rw [supported, Bool.and_eq_true] at hs
    rw [PlainWords] at hp
    exact .binary op (writable_ofExpr l hs.1 hp.1) (writable_ofExpr r hs.2 hp.2)
  | logical op l r =>
    rw [ofExpr] at *
    rw [supported, Bool.and_eq_true] at hs
    rw [PlainWords] at hp
    exact .logical op (writable_ofExpr l hs.1 hp.1) (writable_ofExpr r hs.2 hp.2)
  | isNull e negated =>
    rw [ofExpr] at *
    rw [supported] at hs
    rw [PlainWords] at hp
    exact .isNull negated (writable_ofExpr e hs hp)
  | inList e first others negated =>
    rw [ofExpr] at *
    rw [supported, supportedAll, Bool.and_eq_true, Bool.and_eq_true] at hs
    rw [PlainWords, PlainWordsAll] at hp
    refine .inList negated (writable_ofExpr e hs.1 hp.1) fun item hitem ↦ ?_
    rcases List.mem_cons.1 hitem with rfl | hitem
    · exact writable_ofExpr first hs.2.1 hp.2.1
    · exact writable_ofExprs others hs.2.2 hp.2.2 item hitem
  | between e low high negated =>
    rw [ofExpr] at *
    rw [supported, Bool.and_eq_true, Bool.and_eq_true] at hs
    rw [PlainWords] at hp
    exact .between negated (writable_ofExpr e hs.1.1 hp.1) (writable_ofExpr low hs.1.2 hp.2.1)
      (writable_ofExpr high hs.2 hp.2.2)
  | like e pattern negated ignoreCase =>
    rw [ofExpr] at *
    rw [supported, Bool.and_eq_true] at hs
    rw [PlainWords] at hp
    exact .like negated ignoreCase (writable_ofExpr e hs.1 hp.1) (writable_ofExpr pattern hs.2 hp.2)
  | cast style e type =>
    rw [ofExpr] at *
    rw [supported] at hs
    rw [PlainWords] at hp
    exact .cast (writable_ofExpr e hs hp.1) hp.2
  | call name args =>
    rw [ofExpr] at *
    rw [supported] at hs
    rw [PlainWords] at hp
    exact .call hp.1 (writable_ofExprs args hs hp.2)
  | abridged wording operands kept =>
    rw [ofExpr] at *
    exact writable_ofExpr kept hs hp
  | subquery wording operands => simp [ofExpr, supported] at hs
  | other wording operands => simp [ofExpr, supported] at hs

theorem writable_ofExprs (es : List Expr) (hs : supportedAll (ofExprs es) = true)
    (hp : PlainWordsAll (ofExprs es)) : ∀ f ∈ ofExprs es, Writable f := by
  cases es with
  | nil => simp [ofExprs]
  | cons e es =>
    rw [ofExprs] at *
    rw [supportedAll, Bool.and_eq_true] at hs
    rw [PlainWordsAll] at hp
    intro f hf
    rcases List.mem_cons.1 hf with rfl | hf
    · exact writable_ofExpr e hs.1 hp.1
    · exact writable_ofExprs es hs.2 hp.2 f hf

end

/-- A filter that was read can be written if its words are plain. -/
theorem writable_of_parse {s : String} {t : Filter} (h : parse s = .ok t)
    (hs : t.supported = true) (hp : t.PlainWords) : Writable t := by
  cases he : parseExpr s with
  | error e => simp [parse, he, bind, Except.bind] at h
  | ok e =>
    obtain rfl : ofExpr e = t := by simpa [parse, he, bind, Except.bind, pure, Except.pure] using h
    exact writable_ofExpr e hs hp

end Filter

end Funnel
