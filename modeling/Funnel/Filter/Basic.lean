import Funnel.Sql.Expr

/-!
# Filters

The condition of a funnel step as a tree.  A filter has no parentheses: its shape says how it
groups.  What the tree has no node for is kept as an expression in the node `unsupported`; such a
filter can be written down but its columns cannot be read from other tables.
-/

namespace Funnel

open Sql (UnaryOp BinaryOp LogicalOp Expr)

/-- A reference to a column: the dotted name without quotes, by which tables are looked up, and
the text that stands for it. -/
structure ColumnRef where
  name : String
  sql : String
deriving DecidableEq, Repr

/-- A reference without quotes; the name may have dots. -/
def ColumnRef.plain (name : String) : ColumnRef := ⟨name, name⟩

/-- The reference that the parts of a dotted name make. -/
def ColumnRef.ofParts (parts : List Sql.Ident) : ColumnRef :=
  ⟨Sql.Ident.dottedName parts, Sql.Ident.dottedSql parts⟩

/-- The values that a filter understands. -/
inductive Value
  | number (digits : String)
  | string (text : String)
  | boolean (value : Bool)
  | null
deriving DecidableEq, Repr

inductive Filter
  | column (ref : ColumnRef)
  | value (v : Value)
  | unary (op : UnaryOp) (e : Filter)
  | binary (op : BinaryOp) (left right : Filter)
  | logical (op : LogicalOp) (left right : Filter)
  | isNull (e : Filter) (negated : Bool)
  | inList (e : Filter) (items : List Filter) (negated : Bool)
  | between (e low high : Filter) (negated : Bool)
  | like (e pattern : Filter) (negated ignoreCase : Bool)
  | cast (e : Filter) (type : String)
  | call (name : String) (args : List Filter)
  | unsupported (e : Expr)
deriving Repr, Inhabited

namespace Filter

/-! ## Columns -/

mutual

/-- The names of all column references, from left to right and with repetitions. -/
def references : Filter → List String
  | column ref => [ref.name]
  | value _ => []
  | unary _ e => e.references
  | binary _ left right => left.references ++ right.references
  | logical _ left right => left.references ++ right.references
  | isNull e _ => e.references
  | inList e items _ => e.references ++ referencesAll items
  | between e low high _ => e.references ++ low.references ++ high.references
  | like e pattern _ _ => e.references ++ pattern.references
  | cast e _ => e.references
  | call _ args => referencesAll args
  | unsupported e => e.columns

def referencesAll : List Filter → List String
  | [] => []
  | e :: es => e.references ++ referencesAll es

end

/-- Names in the order in which each first occurs. -/
def firstOccurrences (names : List String) : List String :=
  names.foldl (fun seen name ↦ if seen.contains name then seen else seen ++ [name]) []

/-- The distinct columns, in the order of their first reference. -/
def columns (f : Filter) : List String := firstOccurrences f.references

/-- Some column reference has exactly this name. -/
def mentions (f : Filter) (name : String) : Bool := f.references.contains name

/-! ## Support -/

mutual

/-- No node is unsupported. -/
def supported : Filter → Bool
  | column _ => true
  | value _ => true
  | unary _ e => e.supported
  | binary _ left right => left.supported && right.supported
  | logical _ left right => left.supported && right.supported
  | isNull e _ => e.supported
  | inList e items _ => e.supported && supportedAll items
  | between e low high _ => e.supported && low.supported && high.supported
  | like e pattern _ _ => e.supported && pattern.supported
  | cast e _ => e.supported
  | call _ args => supportedAll args
  | unsupported _ => false

def supportedAll : List Filter → Bool
  | [] => true
  | e :: es => e.supported && supportedAll es

end

/-! ## Equality -/

mutual

def beq : Filter → Filter → Bool
  | column c, column c' => c == c'
  | value v, value v' => v == v'
  | unary op e, unary op' e' => op == op' && beq e e'
  | binary op l r, binary op' l' r' => op == op' && beq l l' && beq r r'
  | logical op l r, logical op' l' r' => op == op' && beq l l' && beq r r'
  | isNull e n, isNull e' n' => beq e e' && n == n'
  | inList e es n, inList e' es' n' => beq e e' && beqAll es es' && n == n'
  | between e l h n, between e' l' h' n' => beq e e' && beq l l' && beq h h' && n == n'
  | like e p n i, like e' p' n' i' => beq e e' && beq p p' && n == n' && i == i'
  | cast e t, cast e' t' => beq e e' && t == t'
  | call f es, call f' es' => f == f' && beqAll es es'
  | unsupported e, unsupported e' => e == e'
  | _, _ => false

def beqAll : List Filter → List Filter → Bool
  | [], [] => true
  | e :: es, e' :: es' => beq e e' && beqAll es es'
  | _, _ => false

end

mutual

theorem beq_iff : ∀ e e' : Filter, beq e e' = true ↔ e = e'
  | column _, e' => by cases e' <;> simp [beq]
  | value _, e' => by cases e' <;> simp [beq]
  | unary _ e, e' => by cases e' <;> simp [beq, beq_iff e]
  | binary _ l r, e' => by cases e' <;> simp [beq, beq_iff l, beq_iff r, and_assoc]
  | logical _ l r, e' => by cases e' <;> simp [beq, beq_iff l, beq_iff r, and_assoc]
  | isNull e _, e' => by cases e' <;> simp [beq, beq_iff e]
  | inList e es _, e' => by cases e' <;> simp [beq, beq_iff e, beqAll_iff es, and_assoc]
  | between e l h _, e' => by
    cases e' <;> simp [beq, beq_iff e, beq_iff l, beq_iff h, and_assoc]
  | like e p _ _, e' => by cases e' <;> simp [beq, beq_iff e, beq_iff p, and_assoc]
  | cast e _, e' => by cases e' <;> simp [beq, beq_iff e]
  | call _ es, e' => by cases e' <;> simp [beq, beqAll_iff es]
  | unsupported _, e' => by cases e' <;> simp [beq]

theorem beqAll_iff : ∀ es es' : List Filter, beqAll es es' = true ↔ es = es'
  | [], es' => by cases es' <;> simp [beqAll]
  | e :: es, es' => by cases es' <;> simp [beqAll, beq_iff e, beqAll_iff es]

end

instance : DecidableEq Filter := fun e e' ↦ decidable_of_iff _ (beq_iff e e')

end Filter

end Funnel
