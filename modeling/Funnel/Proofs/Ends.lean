import Mathlib
import Funnel.Proofs.Nesting

/-!
# Ends of Expressions

Where the reader stops.  `Ends` describes the tokens that a filter writes behind an expression: none
of them opens one of the many clauses that SQL allows there, and no subscript follows.  Rules for
such clauses find nothing, and take nothing.
-/

namespace Funnel.Sql.Grammar

open Rule

variable {α : Type}

/-! ## Rules that find nothing -/

theorem of_bind_ok {r : Rule α} {f : α → Rule β} {ts rest : List Lexeme} {b : β}
    (h : (r >>= f) ts = .ok (b, rest)) :
    ∃ a ts', r ts = .ok (a, ts') ∧ f a ts' = .ok (b, rest) := by
  cases hr : r ts with
  | error e => rw [bind_error hr] at h; cases h
  | ok found =>
    obtain ⟨a, ts'⟩ := found
    rw [bind_ok hr] at h
    exact ⟨a, ts', rfl, h⟩

theorem attempt_eq_none {r : Rule α} {ts : List Lexeme} {e : SyntaxError} (h : r ts = .error e)
    (he : e ≠ .tooDeep) : attempt r ts = .ok (none, ts) := by
  unfold attempt
  rw [h]
  cases e <;> first | rfl | exact absurd rfl he

theorem orTry_eq_ok {r s : Rule α} {ts : List Lexeme} {found : α × List Lexeme}
    (h : r ts = .ok found) : orTry r s ts = .ok found := by
  rw [orTry, h]

theorem nextIsSymbol_eq_false {s : Symbol} {ts : List Lexeme}
    (h : ∀ l ∈ ts.head?, l.token ≠ .symbol s) : nextIsSymbol s ts = .ok (false, ts) := by
  rcases ts with _ | ⟨l, ts⟩
  · rfl
  · have hne : (some l.token == some (.symbol s)) = false := by simpa using h l rfl
    show Except.ok ((some l.token == some (.symbol s)), _) = _
    rw [hne]

theorem symbol?_eq_false {s : Symbol} {ts : List Lexeme}
    (h : ∀ l ∈ ts.head?, l.token ≠ .symbol s) : symbol? s ts = .ok (false, ts) := by
  rw [symbol?, bind_ok (nextIsSymbol_eq_false h)]
  rfl

theorem nextIsSymbol_eq_true {s : Symbol} {l : Lexeme} (h : l.token = .symbol s)
    (ts : List Lexeme) : nextIsSymbol s (l :: ts) = .ok (true, l :: ts) := by
  show Except.ok ((some l.token == some (.symbol s)), _) = _
  rw [h, beq_self_eq_true]

theorem symbol?_eq_true (s : Symbol) (place : Nat) (ts : List Lexeme) :
    symbol? s (⟨.symbol s, place⟩ :: ts) = .ok (true, ts) := by
  rw [symbol?, bind_ok (nextIsSymbol_eq_true rfl ts)]
  rfl

theorem symbol_eq (s : Symbol) (place : Nat) (ts : List Lexeme) :
    symbol s (⟨.symbol s, place⟩ :: ts) = .ok ((), ts) := by
  rw [symbol, bind_ok (symbol?_eq_true s place ts)]
  rfl

theorem parenthesized_eq {r : Rule α} {a : α} {ts rest : List Lexeme} (opening closing : Nat)
    (h : r ts = .ok (a, ⟨.symbol .rparen, closing⟩ :: rest)) :
    parenthesized r (⟨.symbol .lparen, opening⟩ :: ts) = .ok (a, rest) := by
  rw [parenthesized, bind_ok (symbol_eq .lparen opening ts), bind_ok h,
    bind_ok (symbol_eq .rparen closing rest)]
  rfl

theorem nextIsKey_eq_false {k : Keyword} {ts : List Lexeme}
    (h : ∀ l ∈ ts.head?, l.token.key? ≠ some k) : nextIsKey k ts = .ok (false, ts) := by
  rcases ts with _ | ⟨l, ts⟩
  · rfl
  · have hne : (l.token.key? == some k) = false := by simpa using h l rfl
    show Except.ok ((l.token.key? == some k), _) = _
    rw [hne]

theorem key?_eq_false {k : Keyword} {ts : List Lexeme}
    (h : ∀ l ∈ ts.head?, l.token.key? ≠ some k) : key? k ts = .ok (false, ts) := by
  rw [key?, bind_ok (nextIsKey_eq_false h)]
  rfl

theorem afterKey?_eq_none {k : Keyword} {ts : List Lexeme}
    (h : ∀ l ∈ ts.head?, l.token.key? ≠ some k) (r : Rule α) :
    afterKey? k r ts = .ok (none, ts) := by
  rw [afterKey?, bind_ok (key?_eq_false h)]
  rfl

theorem oneOfKeys?_eq_none {ks : List Keyword} {ts : List Lexeme}
    (h : ∀ l ∈ ts.head?, ∀ k ∈ l.token.key?, k ∉ ks) : oneOfKeys? ks ts = .ok (none, ts) := by
  have hkey : peekKey ts = .ok ((ts.head?.map Lexeme.token).bind Token.key?, ts) := rfl
  rw [oneOfKeys?, bind_ok hkey]
  rcases ts with _ | ⟨l, ts⟩
  · rfl
  · cases hk : l.token.key? with
    | none => simp [hk]
    | some k =>
      have hnot : k ∉ ks := h l rfl k hk
      simp [hk, hnot]

/-- Keywords in a row are not there if one of the first two is not. -/
theorem keys?_eq_false {k k' : Keyword} {ks : List Keyword} {ts : List Lexeme}
    (h : (∀ l ∈ ts.head?, l.token.key? ≠ some k) ∨ ∀ l ∈ ts.tail.head?, l.token.key? ≠ some k') :
    keys? (k :: k' :: ks) ts = .ok (false, ts) := by
  refine if_neg fun heq ↦ ?_
  rcases ts with _ | ⟨l, _ | ⟨l', ts⟩⟩
  · simp at heq
  · simp at heq
  · simp only [List.length_cons, List.take_succ_cons, List.map_cons, List.cons.injEq] at heq
    rcases h with h | h
    · exact h l rfl heq.1
    · exact h l' rfl heq.2.1

/-! ## What stands behind an expression -/

/-- The tokens that a filter writes behind an expression. -/
def followers : List Token :=
  [.symbol .rparen, .symbol .comma, .symbol .eq, .symbol .notEq, .symbol .lt, .symbol .ltEq,
   .symbol .gt, .symbol .gtEq, .symbol .plus, .symbol .minus, .symbol .times, .symbol .div,
   .symbol .mod, .symbol .concat, keyToken "AND" "AND", keyToken "OR" "OR", keyToken "IS" "IS",
   keyToken "NOT" "NOT", keyToken "IN" "IN", keyToken "BETWEEN" "BETWEEN",
   keyToken "LIKE" "LIKE", keyToken "ILIKE" "ILIKE", keyToken "AS" "AS"]

theorem token_mem_followers (op : Infix) : op.token ∈ followers := by
  cases op with
  | binary op => cases op <;> decide
  | logical op => cases op <;> decide

/-- The tokens behind an expression begin as a filter goes on, and hold no subscript. -/
structure Ends (rest : List Lexeme) : Prop where
  head : ∀ l ∈ rest.head?, l.token ∈ followers
  plain : ∀ l ∈ rest, l.token ≠ .symbol .lbracket

namespace Ends

variable {rest : List Lexeme}

theorem cons {t : Token} {place : Nat} (ht : t ∈ followers)
    (hrest : ∀ l ∈ rest, l.token ≠ .symbol .lbracket) : Ends (⟨t, place⟩ :: rest) where
  head l hl := by
    obtain rfl : (⟨t, place⟩ : Lexeme) = l := by simpa using hl
    exact ht
  plain l hl := by
    have hne : ∀ u ∈ followers, u ≠ .symbol .lbracket := by decide
    rcases List.mem_cons.1 hl with rfl | hl
    · exact hne t ht
    · exact hrest l hl

theorem ne_symbol (h : Ends rest) {s : Symbol} (hs : .symbol s ∉ followers) :
    ∀ l ∈ rest.head?, l.token ≠ .symbol s := fun l hl heq ↦ hs (heq ▸ h.head l hl)

theorem not_mem_key (h : Ends rest) {ks : List Keyword}
    (hks : ∀ t ∈ followers, ∀ k ∈ t.key?, k ∉ ks) :
    ∀ l ∈ rest.head?, ∀ k ∈ l.token.key?, k ∉ ks := fun l hl ↦ hks _ (h.head l hl)

theorem ne_key (h : Ends rest) {k : Keyword} (hk : ∀ t ∈ followers, t.key? ≠ some k) :
    ∀ l ∈ rest.head?, l.token.key? ≠ some k := fun l hl ↦ hk _ (h.head l hl)

/-- No collation follows. -/
theorem collated_eq (h : Ends rest) (e : Expr) : collated e rest = .ok (e, rest) := by
  rw [collated, bind_ok (afterKey?_eq_none (h.ne_key (by decide)) dottedName)]
  rfl

end Ends

end Funnel.Sql.Grammar
