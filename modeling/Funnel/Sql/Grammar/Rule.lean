import Funnel.Sql.Expr
import Funnel.Sql.SyntaxError

/-!
# Grammar rules

A rule reads the front of a list of tokens and says what it read and what is left, or why it
cannot.  Rules keep no state, so that a rule can be tried and given up.
-/

namespace Funnel.Sql

def Rule (α : Type) := List Lexeme → Except SyntaxError (α × List Lexeme)

namespace Rule

variable {α β : Type}

instance : Monad Rule where
  pure a := fun ts ↦ .ok (a, ts)
  bind r f := fun ts ↦
    match r ts with
    | .ok (a, rest) => f a rest
    | .error e => .error e

instance : Inhabited (Rule α) := ⟨fun _ ↦ .error .tooDeep⟩

@[simp] theorem pure_apply (a : α) (ts : List Lexeme) : (pure a : Rule α) ts = .ok (a, ts) := rfl

theorem bind_ok {r : Rule α} {f : α → Rule β} {ts rest : List Lexeme} {a : α}
    (h : r ts = .ok (a, rest)) : (r >>= f) ts = f a rest := by
  simp only [bind, h]

theorem bind_error {r : Rule α} {f : α → Rule β} {ts : List Lexeme} {e : SyntaxError}
    (h : r ts = .error e) : (r >>= f) ts = .error e := by
  simp only [bind, h]

/-! ## Looking ahead -/

/-- The next token, which is not taken. -/
def peek : Rule (Option Token) := fun ts ↦ .ok (ts.head?.map Lexeme.token, ts)

/-- The token behind `n` others. -/
def peekAt (n : Nat) : Rule (Option Token) := fun ts ↦ .ok (ts[n]?.map Lexeme.token, ts)

/-- The place of the next token. -/
def here : Rule (Option Nat) := fun ts ↦ .ok (ts.head?.map Lexeme.left, ts)

/-- The number of tokens that are left. -/
def size : Rule Nat := fun ts ↦ .ok (ts.length, ts)

def peekKey : Rule (Option Keyword) := do return (← peek).bind Token.key?

def nextIsKey (k : Keyword) : Rule Bool := do return (← peekKey) == some k

def nextIsSymbol (s : Symbol) : Rule Bool := do return (← peek) == some (.symbol s)

/-! ## Failing and retrying -/

def fail (e : SyntaxError) : Rule α := fun _ ↦ .error e

/-- Fails at the next token. -/
def expected (what : Expectation) : Rule α := fun ts ↦ .error (.expected what ts.head?)

/-- Tries a rule and takes nothing if it fails.  Too deep a nesting is no ground for another
try. -/
def attempt (r : Rule α) : Rule (Option α) := fun ts ↦
  match r ts with
  | .ok (a, rest) => .ok (some a, rest)
  | .error .tooDeep => .error .tooDeep
  | .error _ => .ok (none, ts)

/-- A rule and another one that is tried where it fails; if both fail, the error is that of the
first. -/
def orTry (r s : Rule α) : Rule α := fun ts ↦
  match r ts with
  | .ok found => .ok found
  | .error e =>
    match s ts with
    | .ok found => .ok found
    | .error _ => .error e

/-! ## Taking tokens -/

/-- Takes the next token, whatever it is. -/
def skip : Rule Unit := fun ts ↦ .ok ((), ts.tail)

/-- Takes a sign if it is next, and says whether it was. -/
def symbol? (s : Symbol) : Rule Bool := do
  if ← nextIsSymbol s then skip; return true else return false

def symbol (s : Symbol) : Rule Unit := do
  if !(← symbol? s) then expected (.symbol s)

/-- Takes a keyword if it is next, and says whether it was. -/
def key? (k : Keyword) : Rule Bool := do
  if ← nextIsKey k then skip; return true else return false

def key (k : Keyword) : Rule Unit := do
  if !(← key? k) then expected (.keyword k)

/-- Takes keywords in a row if all of them are next. -/
def keys? (ks : List Keyword) : Rule Bool := fun ts ↦
  if (ts.take ks.length).map (fun l ↦ l.token.key?) = ks.map some then
    .ok (true, ts.drop ks.length)
  else .ok (false, ts)

def keys : List Keyword → Rule Unit
  | [] => pure ()
  | k :: ks => do key k; keys ks

/-- Takes one of several keywords if one of them is next. -/
def oneOfKeys? (ks : List Keyword) : Rule (Option Keyword) := do
  match ← peekKey with
  | some k => if ks.contains k then skip; return some k else return none
  | none => return none

/-! ## Repetition -/

/-- Items with a separator between them, at most `n + 1` of them. -/
def separatedIn (separator : Rule Bool) (item : Rule α) : Nat → Rule (List α)
  | 0 => do return [← item]
  | n + 1 => do
    let first ← item
    if ← separator then return first :: (← separatedIn separator item n) else return [first]

/-- Items with commas between them.  Every comma is a token, so the tokens that are left bound
their number. -/
def commaSeparated (item : Rule α) : Rule (List α) := do
  separatedIn (symbol? .comma) item (← size)

/-- Items with commas between them, up to a closing sign; there may be none. -/
def commaSeparatedUntil (closing : Symbol) (item : Rule α) : Rule (List α) := do
  if ← nextIsSymbol closing then return [] else commaSeparated item

/-- A rule between parentheses. -/
def parenthesized (r : Rule α) : Rule α := do
  symbol .lparen
  let a ← r
  symbol .rparen
  return a

/-- A rule that is read if a keyword comes first. -/
def afterKey? (k : Keyword) (r : Rule α) : Rule (Option α) := do
  if ← key? k then return some (← r) else return none

/-- A rule that is read if keywords come first. -/
def afterKeys? (ks : List Keyword) (r : Rule α) : Rule (Option α) := do
  if ← keys? ks then return some (← r) else return none

end Rule

end Funnel.Sql
