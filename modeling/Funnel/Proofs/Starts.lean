import Mathlib
import Funnel.Proofs.Names
import Funnel.Proofs.Types

/-!
# Starts of Expressions

Where the reader begins.  `Starts` describes the tokens of an expression in front of what a filter
writes behind it: the first ones open no query, no argument with a name and no wildcard.
-/

namespace Funnel.Sql.Grammar

open Rule

/-! ## Tokens at their places -/

/-- Lexemes with these tokens. -/
def Spells (ts : List Lexeme) (us : List Token) : Prop := ts.map Lexeme.token = us

theorem Spells.of_cons {ts : List Lexeme} {u : Token} {us : List Token} (h : Spells ts (u :: us)) :
    ∃ place ts', ts = ⟨u, place⟩ :: ts' ∧ Spells ts' us := by
  obtain ⟨⟨t, place⟩, ts', rfl, rfl, hus⟩ := List.map_eq_cons_iff.1 h
  exact ⟨place, ts', rfl, hus⟩

theorem Spells.of_append {ts : List Lexeme} {us vs : List Token} (h : Spells ts (us ++ vs)) :
    ∃ ts₁ ts₂, ts = ts₁ ++ ts₂ ∧ Spells ts₁ us ∧ Spells ts₂ vs :=
  List.map_eq_append_iff.1 h

theorem Spells.of_nil {ts : List Lexeme} (h : Spells ts []) : ts = [] := List.map_eq_nil_iff.1 h

/-! ## Names -/

/-- The tokens of the parts of a name behind its first part. -/
def tailTokens (parts : List Ident) : List Token :=
  parts.flatMap fun name ↦ [.symbol .period, .word name none]

theorem nameTokens_cons (name : Ident) (parts : List Ident) :
    Expr.nameTokens (name :: parts) = .word name none :: tailTokens parts := by
  induction parts generalizing name with
  | nil => rfl
  | cons name' parts ih =>
    calc Expr.nameTokens (name :: name' :: parts)
        = .word name none :: .symbol .period :: Expr.nameTokens (name' :: parts) := rfl
      _ = .word name none :: tailTokens (name' :: parts) := by rw [ih]; rfl

section

variable {ts rest : List Lexeme} {parts : List Ident}

theorem nameTailIn_eq (hts : Spells ts (tailTokens parts))
    (hrest : ∀ l ∈ rest.head?, l.token ≠ .symbol .period) {fuel : Nat}
    (hfuel : parts.length ≤ fuel) (front : List Ident) :
    nameTailIn fuel front (ts ++ rest) = .ok (front ++ parts, rest) := by
  induction parts generalizing ts fuel front with
  | nil =>
    rw [hts.of_nil, List.nil_append, List.append_nil]
    cases fuel with
    | zero => rfl
    | succ fuel =>
      rw [nameTailIn, bind_ok (symbol?_eq_false hrest)]
      rfl
  | cons name parts ih =>
    obtain ⟨p, ts', rfl, hname⟩ := hts.of_cons
    obtain ⟨p', ts'', rfl, hparts⟩ := Spells.of_cons hname
    obtain _ | fuel := fuel
    · simp at hfuel
    have htail := ih hparts (Nat.le_of_succ_le_succ hfuel) (front ++ [name])
    rw [List.append_assoc] at htail
    rw [nameTailIn, List.cons_append, bind_ok (symbol?_eq_true .period p _)]
    exact htail

/-- No wildcard stands behind the parts of a name. -/
theorem wildcardTail_eq (hts : Spells ts (tailTokens parts))
    (hrest : ∀ l ∈ rest.head?, l.token ≠ .symbol .period) (fuel : Nat) (front : List Ident) :
    ∃ ls, wildcardTail fuel front (ts ++ rest) = .ok (none, ls) := by
  induction parts generalizing ts fuel front with
  | nil =>
    rw [hts.of_nil, List.nil_append]
    cases fuel with
    | zero => exact ⟨rest, rfl⟩
    | succ fuel => exact ⟨rest, by rw [wildcardTail, bind_ok (symbol?_eq_false hrest)]; rfl⟩
  | cons name parts ih =>
    obtain ⟨p, ts', rfl, hname⟩ := hts.of_cons
    obtain ⟨p', ts'', rfl, hparts⟩ := Spells.of_cons hname
    cases fuel with
    | zero => exact ⟨_, rfl⟩
    | succ fuel =>
      obtain ⟨ls, htail⟩ := ih hparts fuel (front ++ [name])
      refine ⟨ls, ?_⟩
      rw [wildcardTail, List.cons_append, bind_ok (symbol?_eq_true .period p _)]
      exact htail

end

/-- The keywords that a filter never writes behind the first token of an expression, although they
would give it another meaning. -/
def foreignKeys : List Keyword := ["VALUE", "ON"]

/-- Signs that no expression begins with. -/
def innerSymbols : List Symbol := [.times, .rparen, .period, .fatArrow, .assign, .lbracket]

/-! ## Tokens of expressions -/

theorem not_mem_intercalate {u v : Token} {uss : List (List Token)} (hv : v ≠ u)
    (h : ∀ us ∈ uss, v ∉ us) : v ∉ [u].intercalate uss := by
  cases uss with
  | nil => simp
  | cons us uss =>
    rw [intercalate_cons_eq_flatMap]
    simp only [List.mem_append, List.mem_flatMap, List.mem_cons, not_or, not_exists, not_and]
    exact ⟨h us List.mem_cons_self, fun vs hvs ↦ ⟨hv, h vs (List.mem_cons_of_mem _ hvs)⟩⟩

theorem token_ne_lbracket (op : Infix) : op.token ≠ .symbol .lbracket := by
  cases op with
  | binary op => cases op <;> decide
  | logical op => cases op <;> decide

theorem lbracket_not_mem_tailTokens (parts : List Ident) :
    .symbol .lbracket ∉ tailTokens parts := by
  simp [tailTokens]

theorem lbracket_not_mem_nameTokens (name : List Ident) :
    .symbol .lbracket ∉ Expr.nameTokens name := by
  cases name with
  | nil => exact List.not_mem_nil
  | cons part parts =>
    rw [nameTokens_cons]
    simpa using lbracket_not_mem_tailTokens parts

theorem lbracket_not_mem_items {items : List Expr}
    (h : ∀ item ∈ items, .symbol .lbracket ∉ item.tokens) :
    .symbol .lbracket ∉ [.symbol .comma].intercalate (Expr.tokensAll items) := by
  refine not_mem_intercalate (by decide) ?_
  rw [Expr.tokensAll_eq_map]
  intro us hus
  obtain ⟨item, hitem, rfl⟩ := List.mem_map.1 hus
  exact h item hitem

/-- No filter writes a subscript. -/
theorem lbracket_not_mem_tokens {e : Expr} (h : e.Grouped) :
    .symbol .lbracket ∉ e.tokens := by
  induction h with
  | column hparts => rw [Expr.tokens]; exact lbracket_not_mem_nameTokens _
  | number n => simp [Expr.tokens, Expr.literalTokens]
  | string text => simp [Expr.tokens, Expr.literalTokens]
  | boolean value => cases value <;> simp [Expr.tokens, Expr.literalTokens, keyToken]
  | null => simp [Expr.tokens, Expr.literalTokens, keyToken]
  | nested h ih => simp [Expr.tokens, ih]
  | not h hfloor ih => simp [Expr.tokens, ih, Expr.unaryToken, keyToken]
  | sign hop h hfloor ih =>
    rename_i op e
    cases op <;> simp [Expr.tokens, ih, Expr.unaryToken, keyToken]
  | operator op hl hr hedge hfloor ihl ihr =>
    have hop := (token_ne_lbracket op).symm
    simp [Expr.tokens_apply, ihl, ihr, hop]
  | isNull h hedge ih =>
    rename_i e negated
    cases negated <;> simp [Expr.tokens, ih, Expr.notTokens, keyToken]
  | inList h hedge hitems ih ihitems =>
    rename_i e first others negated
    have hlist := lbracket_not_mem_items ihitems
    rw [Expr.tokensAll] at hlist
    cases negated <;> simp [Expr.tokens, ih, hlist, Expr.notTokens, keyToken]
  | between h hedge hl hlow hh hhigh ih ihl ihh =>
    rename_i e low high negated
    cases negated <;> simp [Expr.tokens, ih, ihl, ihh, Expr.notTokens, keyToken]
  | like h hedge hp hpattern ih ihp =>
    rename_i e pattern negated ignoreCase
    cases negated <;> cases ignoreCase <;>
      simp [Expr.tokens, ih, ihp, Expr.notTokens, Expr.likeToken, keyToken]
  | cast h htype ih => simp [Expr.tokens, ih, keyToken, Token.ofWord]
  | call hname hargs ih =>
    rename_i name args
    have hlist := lbracket_not_mem_items ih
    simp [Expr.tokens, hlist, lbracket_not_mem_nameTokens]

theorem Spells.ne_lbracket {e : Expr} (h : e.Grouped) {ts : List Lexeme}
    (hts : Spells ts e.tokens) : ∀ l ∈ ts, l.token ≠ .symbol .lbracket := fun _ hl heq ↦
  lbracket_not_mem_tokens h (hts ▸ heq ▸ List.mem_map_of_mem hl)

theorem ne_lbracket_items {items : List Expr} (h : ∀ item ∈ items, item.Grouped)
    {ts : List Lexeme} (hts : Spells ts ([.symbol .comma].intercalate (Expr.tokensAll items))) :
    ∀ l ∈ ts, l.token ≠ .symbol .lbracket := fun _ hl heq ↦
  lbracket_not_mem_items (fun item hitem ↦ lbracket_not_mem_tokens (h item hitem))
    (hts ▸ heq ▸ List.mem_map_of_mem hl)

/-! ## Where an expression starts -/

/-- The tokens do not go on with a name in front of them, nor do they make it the name of an
argument or of a clause. -/
def Detached (ls : List Lexeme) : Prop :=
  ∀ l ∈ ls.head?, (∀ s ∈ [.fatArrow, .assign, .period], l.token ≠ .symbol s) ∧
    ∀ k ∈ l.token.key?, k ∉ foreignKeys

theorem Detached.cons {t : Token} {place : Nat} {ls : List Lexeme}
    (hsymbol : ∀ s ∈ [.fatArrow, .assign, .period], t ≠ .symbol s)
    (hkey : ∀ k ∈ t.key?, k ∉ foreignKeys) : Detached (⟨t, place⟩ :: ls) := by
  intro l hl
  obtain rfl : (⟨t, place⟩ : Lexeme) = l := by simpa using hl
  exact ⟨hsymbol, hkey⟩

theorem Ends.detached {rest : List Lexeme} (h : Ends rest) : Detached rest := fun l hl ↦
  ⟨fun s hs ↦ h.ne_symbol (by revert s; decide) l hl, h.not_mem_key (by decide) l hl⟩

/-- The tokens of an expression begin as operands of a filter do. -/
structure Starts (ls : List Lexeme) : Prop where
  ne_nil : ls ≠ []
  key : ∀ l ∈ ls.head?, ∀ k ∈ l.token.key?, k ∈ openingKeys
  symbol : ∀ l ∈ ls.head?, ∀ s ∈ innerSymbols, l.token ≠ .symbol s
  second : ∀ l ∈ ls.tail.head?, l.token ≠ .symbol .fatArrow ∧ l.token ≠ .symbol .assign ∧
    ∀ k ∈ l.token.key?, k ∉ foreignKeys
  wildcard : ∃ ls', wildcardAhead ls = .ok (none, ls')

namespace Starts

/-- A first token that what stands behind it leaves alone. -/
theorem of_cons {t : Token} (place : Nat) {ls : List Lexeme} (hkey : ∀ k ∈ t.key?, k ∈ openingKeys)
    (hsymbol : ∀ s ∈ innerSymbols, t ≠ .symbol s) (hls : Detached ls) :
    Starts (⟨t, place⟩ :: ls) where
  ne_nil := List.cons_ne_nil _ _
  key l hl := by
    obtain rfl : (⟨t, place⟩ : Lexeme) = l := by simpa using hl
    exact hkey
  symbol l hl := by
    obtain rfl : (⟨t, place⟩ : Lexeme) = l := by simpa using hl
    exact hsymbol
  second l hl := ⟨(hls l hl).1 _ (by simp), (hls l hl).1 _ (by simp), (hls l hl).2⟩
  wildcard := by
    have hstar : t ≠ .symbol .times := hsymbol _ (by decide)
    have hperiod : ls.head?.map Lexeme.token ≠ some (.symbol .period) := by
      intro h
      obtain ⟨l, hl, hl'⟩ := Option.map_eq_some_iff.1 h
      exact (hls l hl).1 .period (by simp) hl'
    have hat : peekAt 1 (⟨t, place⟩ :: ls) = .ok (ls.head?.map Lexeme.token, ⟨t, place⟩ :: ls) := by
      cases ls <;> rfl
    refine ⟨⟨t, place⟩ :: ls, ?_⟩
    unfold wildcardAhead
    rw [bind_ok rfl, bind_ok hat]
    refine (congrFun (?_ : _ = (pure none : Rule (Option Phrase))) _).trans rfl
    split
    · next heq => exact absurd (Option.some.inj heq) hstar
    · next heq => exact absurd heq hperiod
    · next heq => exact absurd heq hperiod
    · rfl

/-- A name that what stands behind it leaves alone. -/
theorem of_name (name : Ident) (place : Nat) {parts : List Ident} {ts ls : List Lexeme}
    (hts : Spells ts (tailTokens parts)) (hls : Detached ls) :
    Starts (⟨.word name none, place⟩ :: (ts ++ ls)) := by
  cases parts with
  | nil =>
    rw [hts.of_nil, List.nil_append]
    exact of_cons place (by simp [Token.key?]) (by simp) hls
  | cons part parts =>
    obtain ⟨ls', htail⟩ := wildcardTail_eq hts (fun l hl ↦ (hls l hl).1 .period (by simp))
      (ts ++ ls).length [name]
    obtain ⟨p, ts', rfl, -⟩ := hts.of_cons
    refine ⟨List.cons_ne_nil _ _, ?_, ?_, ?_, ls', ?_⟩
    · simp [Token.key?]
    · simp
    · simp [Token.key?]
    · unfold wildcardAhead
      rw [bind_ok rfl, bind_ok rfl]
      exact (bind_ok htail).trans rfl

variable {ls : List Lexeme}

theorem detached (h : Starts ls) : Detached ls := fun l hl ↦
  ⟨fun s hs ↦ h.symbol l hl s (by revert s; decide), fun k hk hforeign ↦ by
    have hnone : ∀ k ∈ openingKeys, k ∉ foreignKeys := by decide
    exact hnone k (h.key l hl k hk) hforeign⟩

theorem not_mem_key (h : Starts ls) {ks : List Keyword} (hks : ∀ k ∈ openingKeys, k ∉ ks) :
    ∀ l ∈ ls.head?, ∀ k ∈ l.token.key?, k ∉ ks := fun l hl k hk ↦ hks k (h.key l hl k hk)

theorem ne_key (h : Starts ls) {k : Keyword} (hk : k ∉ openingKeys) :
    ∀ l ∈ ls.head?, l.token.key? ≠ some k := fun l hl heq ↦ hk (h.key l hl k heq)

theorem ne_symbol (h : Starts ls) {s : Symbol} (hs : s ∈ innerSymbols) :
    ∀ l ∈ ls.head?, l.token ≠ .symbol s := fun l hl ↦ h.symbol l hl s hs

theorem queryAhead_eq (h : Starts ls) : queryAhead ls = .ok (false, ls) := by
  rw [queryAhead, bind_ok (nextIsKey_eq_false (h.ne_key (by decide))),
    bind_ok (nextIsKey_eq_false (h.ne_key (by decide)))]
  rfl

theorem nullsInObject_eq (h : Starts ls) : nullsInObject ls = .ok ([], ls) := by
  have hsecond : ∀ l ∈ ls.tail.head?, l.token.key? ≠ some "ON" := fun l hl heq ↦
    (h.second l hl).2.2 "ON" heq (by decide)
  rw [nullsInObject, bind_ok (keys?_eq_false (.inl (h.ne_key (by decide))))]
  show (keys? _ >>= _) ls = _
  rw [bind_ok (keys?_eq_false (.inr hsecond))]
  rfl

theorem duplicates_eq (h : Starts ls) : duplicates ls = .ok (none, ls) := by
  rw [duplicates, bind_ok rfl, bind_ok (key?_eq_false (h.ne_key (by decide))),
    bind_ok (key?_eq_false (h.ne_key (by decide)))]
  rfl

end Starts

/-- The tokens behind the left operand of an expression. -/
theorem exists_tokens_isNull (e : Expr) (negated : Bool) :
    ∃ u us, (Expr.isNull e negated).tokens = e.tokens ++ u :: us ∧ u ∈ followers :=
  ⟨keyToken "IS" "IS", _, by rw [Expr.tokens]; exact List.append_assoc _ _ _, by decide⟩

theorem exists_tokens_inList (e first : Expr) (others : List Expr) (negated : Bool) :
    ∃ u us, (Expr.inList e first others negated).tokens = e.tokens ++ u :: us ∧ u ∈ followers := by
  rw [Expr.tokens]
  cases negated with
  | false => exact ⟨keyToken "IN" "IN", _, by simp [Expr.notTokens]; rfl, by decide⟩
  | true => exact ⟨keyToken "NOT" "NOT", _, by simp [Expr.notTokens]; rfl, by decide⟩

theorem exists_tokens_between (e low high : Expr) (negated : Bool) :
    ∃ u us, (Expr.between e low high negated).tokens = e.tokens ++ u :: us ∧ u ∈ followers := by
  rw [Expr.tokens]
  cases negated with
  | false => exact ⟨keyToken "BETWEEN" "BETWEEN", _, by simp [Expr.notTokens]; rfl, by decide⟩
  | true => exact ⟨keyToken "NOT" "NOT", _, by simp [Expr.notTokens]; rfl, by decide⟩

theorem exists_tokens_like (e pattern : Expr) (negated ignoreCase : Bool) :
    ∃ u us, (Expr.like e pattern negated ignoreCase).tokens = e.tokens ++ u :: us ∧
      u ∈ followers := by
  rw [Expr.tokens]
  cases negated with
  | false =>
    refine ⟨Expr.likeToken ignoreCase, _, by simp [Expr.notTokens]; rfl, ?_⟩
    cases ignoreCase <;> decide
  | true => exact ⟨keyToken "NOT" "NOT", _, by simp [Expr.notTokens]; rfl, by decide⟩

/-- An expression starts where its left operand does. -/
theorem Starts.of_left {e left : Expr} (h : e.Grouped)
    (ih : ∀ {ts rest : List Lexeme}, Spells ts left.tokens → Ends rest → Starts (ts ++ rest))
    (hleft : ∃ u us, e.tokens = left.tokens ++ u :: us ∧ u ∈ followers) {ts rest : List Lexeme}
    (hts : Spells ts e.tokens) (hrest : Ends rest) : Starts (ts ++ rest) := by
  have hplain := hts.ne_lbracket h
  obtain ⟨u, us, heq, hu⟩ := hleft
  rw [heq] at hts
  obtain ⟨ts₁, ts₂, rfl, hts₁, hts₂⟩ := hts.of_append
  obtain ⟨p, ts₃, rfl, -⟩ := hts₂.of_cons
  rw [List.append_assoc]
  refine ih hts₁ (.cons hu fun l hl ↦ ?_)
  rcases List.mem_append.1 hl with hl | hl
  · exact hplain l (by simp [hl])
  · exact hrest.plain l hl

/-- The tokens of an expression are read as an operand at first. -/
theorem starts_tokens {e : Expr} (h : e.Grouped) {ts rest : List Lexeme} (hts : Spells ts e.tokens)
    (hrest : Ends rest) : Starts (ts ++ rest) := by
  -- The first token decides, except in front of an operator, where the left operand does.
  have hone : ∀ {t ts rest}, Spells ts [t] → Ends rest → (∀ k ∈ t.key?, k ∈ openingKeys) →
      (∀ s ∈ innerSymbols, t ≠ .symbol s) → Starts (ts ++ rest) := by
    intro t ts rest hts hrest hkey hsymbol
    obtain ⟨p, ts', rfl, hnil⟩ := hts.of_cons
    rw [hnil.of_nil]
    exact .of_cons p hkey hsymbol hrest.detached
  induction h generalizing ts rest with
  | column hparts =>
    rename_i parts
    obtain ⟨name, parts, rfl⟩ := List.exists_cons_of_ne_nil hparts
    rw [Expr.tokens, nameTokens_cons] at hts
    obtain ⟨p, ts', rfl, htail⟩ := hts.of_cons
    exact .of_name name p htail hrest.detached
  | number n => exact hone hts hrest (by simp [Token.key?]) (by simp)
  | string text => exact hone hts hrest (by simp [Token.key?]) (by simp)
  | boolean value => cases value <;> exact hone hts hrest (by decide) (by decide)
  | null => exact hone hts hrest (by decide) (by decide)
  | nested h ih =>
    rw [Expr.tokens] at hts
    obtain ⟨p, ts', rfl, hinner⟩ := Spells.of_cons hts
    obtain ⟨ts₁, ts₂, rfl, hts₁, hts₂⟩ := hinner.of_append
    obtain ⟨p', ts₃, rfl, hnil⟩ := hts₂.of_cons
    rw [List.cons_append, List.append_assoc]
    exact .of_cons p (by decide) (by decide)
      (ih hts₁ (.cons (by decide) (by rw [hnil.of_nil]; exact hrest.plain))).detached
  | not h hfloor ih =>
    obtain ⟨p, ts', rfl, hinner⟩ := Spells.of_cons hts
    exact .of_cons p (by decide) (by decide) (ih hinner hrest).detached
  | sign hop h hfloor ih =>
    rename_i op e
    obtain ⟨p, ts', rfl, hinner⟩ := Spells.of_cons hts
    cases op with
    | not => exact absurd rfl hop
    | minus => exact .of_cons p (by decide) (by decide) (ih hinner hrest).detached
    | plus => exact .of_cons p (by decide) (by decide) (ih hinner hrest).detached
  | operator op hl hr hedge hfloor ihl ihr =>
    exact .of_left (.operator op hl hr hedge hfloor) ihl
      ⟨_, _, Expr.tokens_apply op _ _, token_mem_followers op⟩ hts hrest
  | isNull h hedge ih =>
    exact .of_left (.isNull h hedge) ih (exists_tokens_isNull _ _) hts hrest
  | inList h hedge hitems ih ihitems =>
    exact .of_left (.inList h hedge hitems) ih (exists_tokens_inList _ _ _ _) hts hrest
  | between h hedge hl hlow hh hhigh ih ihl ihh =>
    exact .of_left (.between h hedge hl hlow hh hhigh) ih (exists_tokens_between _ _ _ _) hts hrest
  | like h hedge hp hpattern ih ihp =>
    exact .of_left (.like h hedge hp hpattern) ih (exists_tokens_like _ _ _ _) hts hrest
  | cast h htype ih =>
    obtain ⟨p, ts', rfl, hinner⟩ := Spells.of_cons hts
    obtain ⟨p', ts'', rfl, -⟩ := hinner.of_cons
    exact .of_cons p (by decide) (by decide) (.cons (by decide) (by decide))
  | call hname hargs ih =>
    rename_i name args
    obtain ⟨part, parts, rfl⟩ := List.exists_cons_of_ne_nil hname
    rw [Expr.tokens, nameTokens_cons, List.append_assoc, List.cons_append] at hts
    obtain ⟨p, ts', rfl, htail⟩ := hts.of_cons
    obtain ⟨ts₁, ts₂, rfl, hts₁, hts₂⟩ := htail.of_append
    obtain ⟨p', ts₃, rfl, -⟩ := hts₂.of_cons
    rw [List.cons_append, List.append_assoc]
    exact .of_name part p hts₁ (.cons (by decide) (by decide))

end Funnel.Sql.Grammar
