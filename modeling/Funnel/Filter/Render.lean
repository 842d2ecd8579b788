import Funnel.Filter.Basic

/-!
# Writing filters

A filter is written with the parentheses that its shape needs and no others.  The same writer
serves two purposes: `render` writes every column as it stands, and `rewrite` asks a resolver for
the table of each column and puts the table in front.  The resolver may keep a state; it is asked
once for every reference, from left to right.
-/

namespace Funnel

open Sql (UnaryOp BinaryOp LogicalOp Expr)

/-! ## Binding strength -/

/-- How tightly an operator binds in a written filter. -/
def operatorStrength : BinaryOp → Nat
  | .eq | .notEq | .lt | .ltEq | .gt | .gtEq => 4
  | .concat => 5
  | .plus | .minus => 6
  | .multiply | .divide | .modulo => 7

/-- The least strength of an operand of `IS NULL`, `IN`, `BETWEEN` and `LIKE`. -/
def operandStrength : Nat := 5

/-- How tightly a filter holds together when it is written.  An expression that is not understood
holds together least of all. -/
def Filter.strength : Filter → Nat
  | unsupported _ => 0
  | logical .or _ _ => 1
  | logical .and _ _ => 2
  | unary .not _ => 3
  | isNull _ _ | inList _ _ _ | between _ _ _ _ | like _ _ _ _ => 4
  | binary op _ _ => operatorStrength op
  | unary _ _ => 8
  | column _ | value _ | cast _ _ | call _ _ => 9

/-! ## Leaves and operands -/

/-- A value as it is written; a quote in a string is written twice. -/
def Value.sql : Value → String
  | number digits => digits
  | string text => "'" ++ String.ofList (Text.Quoted.encode '\x27' text.toList) ++ "'"
  | boolean true => "true"
  | boolean false => "false"
  | null => "NULL"

/-- A string stands in quotes, in front of what follows it. -/
theorem Value.toList_string_append (s : String) (rest : List Char) :
    (string s).sql.toList ++ rest =
      '\x27' :: (Text.Quoted.encode '\x27' s.toList ++ '\x27' :: rest) := by
  simp [sql]

/-- The text of an operand, in parentheses if it is too weak for its place. -/
def guarded (least strength : Nat) (text : String) : String :=
  if strength < least then "(" ++ text ++ ")" else text

/-- A text begins with a sign. -/
def startsWithSign (text : String) : Bool :=
  match text.toList with
  | '-' :: _ | '+' :: _ => true
  | _ => false

/-- A sign and its operand.  Two signs in a row are kept apart, because two minus signs open a
comment. -/
def signedText (op : UnaryOp) (operand : String) : String :=
  if op ≠ .not ∧ startsWithSign operand then op.text ++ "(" ++ operand ++ ")"
  else op.text ++ operand

/-- The word of a test between its operands. -/
def testWord (negated : Bool) (word : String) : String := " " ++ Sql.negation negated ++ word ++ " "

/-! ## The writer -/

namespace Filter

variable {m : Type → Type} [Monad m]

mutual

/-- Writes a filter; `leaf` writes the columns and `foreign` what is not understood. -/
def write (leaf : ColumnRef → m String) (foreign : Expr → m String) : Filter → m String
  | column ref => leaf ref
  | value v => pure v.sql
  | unary op e => do
    let operand ← write leaf foreign e
    return signedText op (guarded (strength (.unary op e)) e.strength operand)
  | binary op left right => do
    let l ← write leaf foreign left
    let r ← write leaf foreign right
    return guarded (operatorStrength op) left.strength l ++ " " ++ op.text ++ " " ++
      guarded (operatorStrength op + 1) right.strength r
  | logical op left right => do
    let l ← write leaf foreign left
    let r ← write leaf foreign right
    let least := strength (.logical op left right)
    return guarded least left.strength l ++ " " ++ op.text ++ " " ++
      guarded least right.strength r
  | isNull e negated => do
    let t ← write leaf foreign e
    return guarded operandStrength e.strength t ++ " IS " ++ Sql.negation negated ++ "NULL"
  | inList e items negated => do
    let t ← write leaf foreign e
    let ts ← writeAll leaf foreign items
    return guarded operandStrength e.strength t ++ testWord negated "IN" ++ "(" ++
      ", ".intercalate ts ++ ")"
  | between e low high negated => do
    let t ← write leaf foreign e
    let l ← write leaf foreign low
    let h ← write leaf foreign high
    return guarded operandStrength e.strength t ++ testWord negated "BETWEEN" ++
      guarded operandStrength low.strength l ++ " AND " ++
      guarded operandStrength high.strength h
  | like e pattern negated ignoreCase => do
    let t ← write leaf foreign e
    let p ← write leaf foreign pattern
    return guarded operandStrength e.strength t ++ testWord negated (Sql.likeWord ignoreCase) ++
      guarded operandStrength pattern.strength p
  | cast e type => do
    let t ← write leaf foreign e
    return "cast(" ++ t ++ " AS " ++ type ++ ")"
  | call name args => do
    let ts ← writeAll leaf foreign args
    return name ++ "(" ++ ", ".intercalate ts ++ ")"
  | unsupported e => foreign e

def writeAll (leaf : ColumnRef → m String) (foreign : Expr → m String) :
    List Filter → m (List String)
  | [] => pure []
  | e :: es => do
    let t ← write leaf foreign e
    let ts ← writeAll leaf foreign es
    return t :: ts

end

/-- The text of a filter. -/
def render (f : Filter) : String :=
  Id.run (write (fun ref ↦ pure ref.sql) (fun e ↦ pure e.sql) f)

theorem writeAll_eq_map (es : List Filter) :
    Id.run (writeAll (fun ref ↦ pure ref.sql) (fun e ↦ pure e.sql) es) = es.map render := by
  induction es with
  | nil => rfl
  | cons e es ih =>
    rw [List.map_cons, ← ih]
    rfl

theorem render_column (ref : ColumnRef) : (column ref).render = ref.sql := rfl

theorem render_unary (op : UnaryOp) (e : Filter) : (unary op e).render =
    signedText op (guarded (strength (.unary op e)) e.strength e.render) := rfl

theorem render_binary (op : BinaryOp) (left right : Filter) : (binary op left right).render =
    guarded (operatorStrength op) left.strength left.render ++ " " ++ op.text ++ " " ++
      guarded (operatorStrength op + 1) right.strength right.render := rfl

theorem render_logical (op : LogicalOp) (left right : Filter) : (logical op left right).render =
    guarded (strength (.logical op left right)) left.strength left.render ++ " " ++ op.text ++
      " " ++ guarded (strength (.logical op left right)) right.strength right.render := rfl

theorem render_isNull (e : Filter) (negated : Bool) : (isNull e negated).render =
    guarded operandStrength e.strength e.render ++ " IS " ++ Sql.negation negated ++ "NULL" := rfl

theorem render_inList (e : Filter) (items : List Filter) (negated : Bool) :
    (inList e items negated).render = guarded operandStrength e.strength e.render ++
      testWord negated "IN" ++ "(" ++ ", ".intercalate (items.map render) ++ ")" := by
  rw [← writeAll_eq_map]
  rfl

theorem render_between (e low high : Filter) (negated : Bool) :
    (between e low high negated).render = guarded operandStrength e.strength e.render ++
      testWord negated "BETWEEN" ++ guarded operandStrength low.strength low.render ++ " AND " ++
      guarded operandStrength high.strength high.render := rfl

theorem render_like (e pattern : Filter) (negated ignoreCase : Bool) :
    (like e pattern negated ignoreCase).render = guarded operandStrength e.strength e.render ++
      testWord negated (Sql.likeWord ignoreCase) ++
      guarded operandStrength pattern.strength pattern.render := rfl

theorem render_cast (e : Filter) (type : String) :
    (cast e type).render = "cast(" ++ e.render ++ " AS " ++ type ++ ")" := rfl

theorem render_call (name : String) (args : List Filter) :
    (call name args).render = name ++ "(" ++ ", ".intercalate (args.map render) ++ ")" := by
  rw [← writeAll_eq_map]
  rfl

/-! ## Rewriting -/

/-- The filter holds an expression whose columns cannot be read from other tables. -/
structure RewriteError where
  node : String
deriving DecidableEq, Repr

def RewriteError.message (e : RewriteError) : String :=
  "cannot rewrite column sources of \x60" ++ e.node ++ "\x60"

/-- A column, behind the table that was found for it. -/
def qualified (qualifier : Option String) (ref : ColumnRef) : String :=
  match qualifier with
  | some q => q ++ "." ++ ref.sql
  | none => ref.sql

/-- The text of a filter in which a resolver names the table of each column. -/
def rewrite {σ : Type} (resolve : String → StateM σ (Option String)) (f : Filter) :
    ExceptT RewriteError (StateM σ) String :=
  write (fun ref ↦ do return qualified (← resolve ref.name) ref)
    (fun e ↦ throw ⟨e.sql⟩) f

/-- The text of a filter, given the table of each column. -/
def rewriteWith (table : String → Option String) (f : Filter) : Except RewriteError String :=
  write (fun ref ↦ .ok (qualified (table ref.name) ref)) (fun e ↦ .error ⟨e.sql⟩) f

end Filter

end Funnel
