import Funnel.Sql.Literal
import Funnel.Sql.Operator

/-!
# Expressions as written

The expressions of SQL, with every parenthesis and spelling that their text has, and the types of
casts.  The forms that a filter gives a meaning to have constructors of their own.  All others are
kept as a wording with gaps for their operands (`Expr.other`): enough to write them down again and
to find their columns.  Some forms carry a part that a filter drops; `Expr.abridged` holds such a
form as it was written, beside the expression that is kept of it.

A filter keeps the text of a type and nothing else.  The grammar also needs to know the types that
the user defined and the type of intervals, because a string behind one of those is no literal of
the type.
-/

namespace Funnel.Sql

/-- The two ways to write a cast. -/
inductive CastStyle
  | function
  | doubleColon
deriving DecidableEq, Repr

mutual

inductive Expr
  | column (parts : List Ident)
  | literal (value : Literal)
  /-- An expression in parentheses. -/
  | nested (e : Expr)
  | unary (op : UnaryOp) (e : Expr)
  | binary (op : BinaryOp) (left right : Expr)
  | logical (op : LogicalOp) (left right : Expr)
  | isNull (e : Expr) (negated : Bool)
  /-- A list of values has a first one. -/
  | inList (e first : Expr) (others : List Expr) (negated : Bool)
  | between (e low high : Expr) (negated : Bool)
  | like (e pattern : Expr) (negated ignoreCase : Bool)
  | cast (style : CastStyle) (e : Expr) (type : DataType)
  | call (name : List Ident) (args : List Expr)
  /-- A query in parentheses; its wording is without them. -/
  | subquery (wording : List Piece) (operands : List Expr)
  /-- A form without a meaning for filters; `operands` are in the order in which they are
  visited, which need not be the order of the gaps. -/
  | other (wording : List Piece) (operands : List Expr)
  /-- A form of which a filter keeps the expression `kept` only. -/
  | abridged (wording : List Piece) (operands : List Expr) (kept : Expr)

inductive DataType
  | interval
  /-- A type that SQL does not know, as it was written. -/
  | custom (name : List Ident) (modifiers : List String)
  /-- Any other type, in its normal wording.  It has operands where the fields of a table within a
  column have defaults and checks. -/
  | known (wording : List Piece) (operands : List Expr)

/-- A piece of the wording of a form or a type. -/
inductive Piece
  | text (s : String)
  | literal (value : Literal)
  | name (parts : List Ident)
  | type (t : DataType)
  /-- The operand with this index. -/
  | gap (i : Nat)

end

deriving instance Repr, Inhabited for Expr, DataType, Piece

/-- `word` if a negation calls for it. -/
def negation (negated : Bool) : String := if negated then "NOT " else ""

def likeWord (ignoreCase : Bool) : String := if ignoreCase then "ILIKE" else "LIKE"

/-! ## Text -/

mutual

/-- The text of an expression: single spaces, keywords in upper case, parentheses as written. -/
def Expr.sql : Expr → String
  | .column parts => Ident.dottedSql parts
  | .literal value => value.sql
  | .nested e => "(" ++ e.sql ++ ")"
  | .unary op e => op.text ++ e.sql
  | .binary op left right => left.sql ++ " " ++ op.text ++ " " ++ right.sql
  | .logical op left right => left.sql ++ " " ++ op.text ++ " " ++ right.sql
  | .isNull e negated => e.sql ++ " IS " ++ negation negated ++ "NULL"
  | .inList e first others negated =>
    e.sql ++ " " ++ negation negated ++ "IN (" ++
      ", ".intercalate (first.sql :: Expr.sqlAll others) ++ ")"
  | .between e low high negated =>
    e.sql ++ " " ++ negation negated ++ "BETWEEN " ++ low.sql ++ " AND " ++ high.sql
  | .like e pattern negated ignoreCase =>
    e.sql ++ " " ++ negation negated ++ likeWord ignoreCase ++ " " ++ pattern.sql
  | .cast .function e type => "CAST(" ++ e.sql ++ " AS " ++ type.sql ++ ")"
  | .cast .doubleColon e type => e.sql ++ "::" ++ type.sql
  | .call name args => Ident.dottedSql name ++ "(" ++ ", ".intercalate (Expr.sqlAll args) ++ ")"
  | .subquery wording operands => "(" ++ fill wording (Expr.sqlAll operands) ++ ")"
  | .other wording operands => fill wording (Expr.sqlAll operands)
  | .abridged wording operands _ => fill wording (Expr.sqlAll operands)

def Expr.sqlAll : List Expr → List String
  | [] => []
  | e :: es => e.sql :: Expr.sqlAll es

def DataType.sql : DataType → String
  | .interval => "INTERVAL"
  | .custom name [] => Ident.dottedSql name
  | .custom name modifiers => Ident.dottedSql name ++ "(" ++ ", ".intercalate modifiers ++ ")"
  | .known wording operands => fill wording (Expr.sqlAll operands)

/-- A piece, given the texts of the operands. -/
def Piece.sql : Piece → List String → String
  | .text s, _ => s
  | .literal value, _ => value.sql
  | .name parts, _ => Ident.dottedSql parts
  | .type t, _ => t.sql
  | .gap i, operands => operands[i]?.getD ""

/-- A wording, given the texts of the operands. -/
def fill : List Piece → List String → String
  | [], _ => ""
  | piece :: wording, operands => piece.sql operands ++ fill wording operands

end

/-! ## Columns -/

mutual

/-- The names of the columns of an expression, an expression before its operands and the operands
in their visiting order; types come last. -/
def Expr.columns : Expr → List String
  | .column parts => [Ident.dottedName parts]
  | .literal _ => []
  | .nested e => e.columns
  | .unary _ e => e.columns
  | .binary _ left right => left.columns ++ right.columns
  | .logical _ left right => left.columns ++ right.columns
  | .isNull e _ => e.columns
  | .inList e first others _ => e.columns ++ first.columns ++ Expr.columnsAll others
  | .between e low high _ => e.columns ++ low.columns ++ high.columns
  | .like e pattern _ _ => e.columns ++ pattern.columns
  | .cast _ e type => e.columns ++ type.columns
  | .call _ args => Expr.columnsAll args
  | .subquery wording operands => Expr.columnsAll operands ++ typeColumns wording
  | .other wording operands => Expr.columnsAll operands ++ typeColumns wording
  | .abridged wording operands _ => Expr.columnsAll operands ++ typeColumns wording

def Expr.columnsAll : List Expr → List String
  | [] => []
  | e :: es => e.columns ++ Expr.columnsAll es

/-- The columns in the expressions that stand in a type. -/
def DataType.columns : DataType → List String
  | .known wording operands => Expr.columnsAll operands ++ typeColumns wording
  | _ => []

/-- The columns in the types of a wording. -/
def typeColumns : List Piece → List String
  | [] => []
  | .type t :: wording => t.columns ++ typeColumns wording
  | _ :: wording => typeColumns wording

end

/-! ## Equality -/

mutual

def Expr.beq : Expr → Expr → Bool
  | .column p, .column p' => p == p'
  | .literal v, .literal v' => v == v'
  | .nested e, .nested e' => e.beq e'
  | .unary op e, .unary op' e' => op == op' && e.beq e'
  | .binary op l r, .binary op' l' r' => op == op' && l.beq l' && r.beq r'
  | .logical op l r, .logical op' l' r' => op == op' && l.beq l' && r.beq r'
  | .isNull e n, .isNull e' n' => e.beq e' && n == n'
  | .inList e f es n, .inList e' f' es' n' =>
    e.beq e' && f.beq f' && Expr.beqAll es es' && n == n'
  | .between e l h n, .between e' l' h' n' => e.beq e' && l.beq l' && h.beq h' && n == n'
  | .like e p n i, .like e' p' n' i' => e.beq e' && p.beq p' && n == n' && i == i'
  | .cast s e t, .cast s' e' t' => s == s' && e.beq e' && t.beq t'
  | .call f es, .call f' es' => f == f' && Expr.beqAll es es'
  | .subquery w es, .subquery w' es' => Piece.beqAll w w' && Expr.beqAll es es'
  | .other w es, .other w' es' => Piece.beqAll w w' && Expr.beqAll es es'
  | .abridged w es k, .abridged w' es' k' =>
    Piece.beqAll w w' && Expr.beqAll es es' && k.beq k'
  | _, _ => false

def Expr.beqAll : List Expr → List Expr → Bool
  | [], [] => true
  | e :: es, e' :: es' => e.beq e' && Expr.beqAll es es'
  | _, _ => false

def DataType.beq : DataType → DataType → Bool
  | .interval, .interval => true
  | .custom name ms, .custom name' ms' => name == name' && ms == ms'
  | .known w es, .known w' es' => Piece.beqAll w w' && Expr.beqAll es es'
  | _, _ => false

def Piece.beq : Piece → Piece → Bool
  | .text s, .text s' => s == s'
  | .literal v, .literal v' => v == v'
  | .name p, .name p' => p == p'
  | .type t, .type t' => t.beq t'
  | .gap i, .gap i' => i == i'
  | _, _ => false

def Piece.beqAll : List Piece → List Piece → Bool
  | [], [] => true
  | p :: ps, p' :: ps' => p.beq p' && Piece.beqAll ps ps'
  | _, _ => false

end

mutual

theorem Expr.beq_iff : ∀ e e' : Expr, e.beq e' = true ↔ e = e'
  | .column _, e' => by cases e' <;> simp [Expr.beq]
  | .literal _, e' => by cases e' <;> simp [Expr.beq]
  | .nested e, e' => by cases e' <;> simp [Expr.beq, e.beq_iff]
  | .unary _ e, e' => by cases e' <;> simp [Expr.beq, e.beq_iff]
  | .binary _ l r, e' => by cases e' <;> simp [Expr.beq, l.beq_iff, r.beq_iff, and_assoc]
  | .logical _ l r, e' => by cases e' <;> simp [Expr.beq, l.beq_iff, r.beq_iff, and_assoc]
  | .isNull e _, e' => by cases e' <;> simp [Expr.beq, e.beq_iff]
  | .inList e f es _, e' => by
    cases e' <;> simp [Expr.beq, e.beq_iff, f.beq_iff, Expr.beqAll_iff es, and_assoc]
  | .between e l h _, e' => by
    cases e' <;> simp [Expr.beq, e.beq_iff, l.beq_iff, h.beq_iff, and_assoc]
  | .like e p _ _, e' => by cases e' <;> simp [Expr.beq, e.beq_iff, p.beq_iff, and_assoc]
  | .cast _ e t, e' => by cases e' <;> simp [Expr.beq, e.beq_iff, t.beq_iff, and_assoc]
  | .call _ es, e' => by cases e' <;> simp [Expr.beq, Expr.beqAll_iff es]
  | .subquery w es, e' => by
    cases e' <;> simp [Expr.beq, Piece.beqAll_iff w, Expr.beqAll_iff es]
  | .other w es, e' => by
    cases e' <;> simp [Expr.beq, Piece.beqAll_iff w, Expr.beqAll_iff es]
  | .abridged w es k, e' => by
    cases e' <;> simp [Expr.beq, Piece.beqAll_iff w, Expr.beqAll_iff es, k.beq_iff, and_assoc]

theorem Expr.beqAll_iff : ∀ es es' : List Expr, Expr.beqAll es es' = true ↔ es = es'
  | [], es' => by cases es' <;> simp [Expr.beqAll]
  | e :: es, es' => by cases es' <;> simp [Expr.beqAll, e.beq_iff, Expr.beqAll_iff es]

theorem DataType.beq_iff : ∀ t t' : DataType, t.beq t' = true ↔ t = t'
  | .interval, t' => by cases t' <;> simp [DataType.beq]
  | .custom _ _, t' => by cases t' <;> simp [DataType.beq]
  | .known w es, t' => by
    cases t' <;> simp [DataType.beq, Piece.beqAll_iff w, Expr.beqAll_iff es]

theorem Piece.beq_iff : ∀ p p' : Piece, p.beq p' = true ↔ p = p'
  | .text _, p' => by cases p' <;> simp [Piece.beq]
  | .literal _, p' => by cases p' <;> simp [Piece.beq]
  | .name _, p' => by cases p' <;> simp [Piece.beq]
  | .type t, p' => by cases p' <;> simp [Piece.beq, t.beq_iff]
  | .gap _, p' => by cases p' <;> simp [Piece.beq]

theorem Piece.beqAll_iff : ∀ ps ps' : List Piece, Piece.beqAll ps ps' = true ↔ ps = ps'
  | [], ps' => by cases ps' <;> simp [Piece.beqAll]
  | p :: ps, ps' => by cases ps' <;> simp [Piece.beqAll, p.beq_iff, Piece.beqAll_iff ps]

end

instance : DecidableEq Expr := fun e e' ↦ decidable_of_iff _ (e.beq_iff e')

instance : DecidableEq DataType := fun t t' ↦ decidable_of_iff _ (t.beq_iff t')

/-! ## Phrases -/

/-- A wording with its operands, from which forms are put together. -/
structure Phrase where
  wording : List Piece
  operands : List Expr

namespace Phrase

/-- Gaps moved up by the number of operands in front of them. -/
def shift (n : Nat) : Piece → Piece
  | .gap i => .gap (i + n)
  | piece => piece

/-- One phrase behind another. -/
def append (p q : Phrase) : Phrase :=
  ⟨p.wording ++ q.wording.map (shift p.operands.length), p.operands ++ q.operands⟩

instance : Append Phrase := ⟨append⟩

def empty : Phrase := ⟨[], []⟩

def text (s : String) : Phrase := ⟨[.text s], []⟩

def literal (v : Literal) : Phrase := ⟨[.literal v], []⟩

def name (parts : List Ident) : Phrase := ⟨[.name parts], []⟩

def type (t : DataType) : Phrase := ⟨[.type t], []⟩

def expr (e : Expr) : Phrase := ⟨[.gap 0], [e]⟩

instance : Coe Expr Phrase := ⟨expr⟩

/-- A phrase whose operands are visited before those of the phrase written in front of it. -/
def writtenAfter (p q : Phrase) : Phrase :=
  ⟨q.wording.map (shift p.operands.length) ++ p.wording, p.operands ++ q.operands⟩

/-- Phrases in a row. -/
def concat (ps : List Phrase) : Phrase := ps.foldl append empty

/-- Phrases with a text between them. -/
def separated (separator : String) (ps : List Phrase) : Phrase :=
  concat ((ps.intersperse (text separator)))

def commas (ps : List Phrase) : Phrase := separated ", " ps

/-- A phrase that may be missing. -/
def optional (p : Option Phrase) : Phrase := p.getD empty

/-- The form with the wording of a phrase. -/
def toExpr (p : Phrase) : Expr := .other p.wording p.operands

/-- The form with the wording of a phrase, of which a filter keeps one expression. -/
def keeping (p : Phrase) (kept : Expr) : Expr := .abridged p.wording p.operands kept

/-- The text of a phrase. -/
def sql (p : Phrase) : String := fill p.wording (Expr.sqlAll p.operands)

/-- The type with the wording of a phrase. -/
def toType (p : Phrase) : DataType := .known p.wording p.operands

end Phrase

/-- A type as a phrase.  The expressions in it become operands, so that those of the types within
a type are in the order of the text. -/
def DataType.phrase : DataType → Phrase
  | .known wording operands => ⟨wording, operands⟩
  | type => .type type

end Funnel.Sql
