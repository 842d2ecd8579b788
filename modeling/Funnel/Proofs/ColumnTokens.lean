import Mathlib
import Funnel.Proofs.ColumnForms
import Funnel.Proofs.NameTokens
import Funnel.Proofs.Operands

/-!
# Tokens of Columns

Where the reader finds a column, it has read the tokens of a name, and the parentheses around it
(`readsNames_nested`).  The name does not begin with a keyword that is a value, nor with one that is
never a name; any other keyword may be a part of it.  The proof follows the reader: what stands
between the parentheses is an expression one level deeper, and nothing else is left of a rule that
finds no column.
-/

namespace Funnel.Sql

namespace Grammar

open Rule

/-! ## Names that are columns -/

/-- The keywords that are values by themselves. -/
def valueKeys : List Keyword :=
  ["TRUE", "FALSE", "NULL", "CURRENT_CATALOG", "CURRENT_USER", "SESSION_USER", "USER",
   "CURRENT_TIMESTAMP", "CURRENT_TIME", "CURRENT_DATE", "LOCALTIME", "LOCALTIMESTAMP"]

end Grammar

/-- The part can be the first one of a column.  A string in single quotes is a value there. -/
def Ident.Opens (i : Ident) : Prop :=
  i.quote ≠ some .single ∧ ∀ k ∈ i.token.key?, k ∉ Grammar.valueKeys ++ Grammar.properKeywords

namespace Grammar

open Rule

/-- The tokens of a name that is read as a column, perhaps in parentheses. -/
inductive NamesColumn : List Ident → List Token → Prop
  | name {i : Ident} (h : i.Opens) (parts : List Ident) :
    NamesColumn (i :: parts) (i.token :: Ident.tailTokens parts)
  | nested {parts : List Ident} {us : List Token} (h : NamesColumn parts us) :
    NamesColumn parts (.symbol .lparen :: (us ++ [.symbol .rparen]))

/-- Where the rule finds a column, it has read the tokens of its name. -/
def ReadsNames (r : Rule Expr) : Prop :=
  ∀ ⦃ts e rest parts⦄, (∀ l ∈ ts, l.token.Lexed) → r ts = .ok (e, rest) → e.name? = some parts →
    ∃ us, ts = us ++ rest ∧ NamesColumn parts (us.map Lexeme.token)

/-! ## What was next -/

theorem of_symbol? {s : Symbol} {ts rest : List Lexeme} {found : Bool}
    (h : symbol? s ts = .ok (found, rest)) :
    (found = false ∧ rest = ts ∧ ∀ l ∈ ts.head?, l.token ≠ .symbol s) ∨
      (found = true ∧ ∃ place, ts = ⟨.symbol s, place⟩ :: rest) := by
  by_cases hnext : ∀ l ∈ ts.head?, l.token ≠ .symbol s
  · rw [symbol?_eq_false hnext] at h
    cases h
    exact .inl ⟨rfl, rfl, hnext⟩
  · obtain ⟨⟨t, place⟩, hl, ht⟩ : ∃ l ∈ ts.head?, l.token = .symbol s := by simpa using hnext
    obtain ⟨ts, rfl⟩ := List.head?_eq_some_iff.1 hl
    obtain rfl : t = .symbol s := ht
    rw [symbol?_eq_true] at h
    cases h
    exact .inr ⟨rfl, place, rfl⟩

theorem of_symbol {s : Symbol} {ts rest : List Lexeme} (h : symbol s ts = .ok ((), rest)) :
    ∃ place, ts = ⟨.symbol s, place⟩ :: rest := by
  obtain ⟨found, ts', hfound, hrun⟩ := of_bind_ok h
  obtain ⟨rfl, -⟩ | ⟨rfl, hplace⟩ := of_symbol? hfound
  · cases hrun
  · cases hrun
    exact hplace

theorem exists_of_head {t : Token} {ts : List Lexeme} (h : ts.head?.map Lexeme.token = some t) :
    ∃ place ls, ts = ⟨t, place⟩ :: ls := by
  obtain ⟨⟨_, place⟩, hl, rfl⟩ := Option.map_eq_some_iff.1 h
  obtain ⟨ls, rfl⟩ := List.head?_eq_some_iff.1 hl
  exact ⟨place, ls, rfl⟩

theorem of_peek {α : Type} {f : Option Token → Rule α} {ts rest : List Lexeme} {a : α}
    (h : (peek >>= f) ts = .ok (a, rest)) :
    f (ts.head?.map Lexeme.token) ts = .ok (a, rest) := h

theorem of_orTry {α : Type} {r s : Rule α} {ts : List Lexeme} {found : α × List Lexeme}
    (h : orTry r s ts = .ok found) :
    r ts = .ok found ∨ (∃ e, r ts = .error e) ∧ s ts = .ok found := by
  unfold orTry at h
  split at h
  · next hrun =>
    cases h
    exact .inl hrun
  · next e hrun =>
    split at h
    · next hrun' =>
      cases h
      exact .inr ⟨⟨e, hrun⟩, hrun'⟩
    · cases h

theorem of_attempt_none {α : Type} {r : Rule α} {ts rest : List Lexeme}
    (h : attempt r ts = .ok (none, rest)) : rest = ts := by
  unfold attempt at h
  split at h <;> cases h
  rfl

/-! ## Names -/

variable {n : Nested} {ts ls rest : List Lexeme}

/-- The parts stand here, each behind its period, and then `rest`. -/
def PartsAhead (is : List Ident) (ls rest : List Lexeme) : Prop :=
  ∃ us, ls = us ++ rest ∧ us.map Lexeme.token = Ident.tailTokens is

theorem PartsAhead.nil : PartsAhead [] ls ls :=
  ⟨[], rfl, rfl⟩

theorem PartsAhead.cons {i : Ident} {is : List Ident} (h : PartsAhead is ls rest)
    (place place' : Nat) :
    PartsAhead (i :: is) (⟨.symbol .period, place⟩ :: ⟨i.token, place'⟩ :: ls) rest := by
  obtain ⟨us, rfl, hus⟩ := h
  refine ⟨⟨.symbol .period, place⟩ :: ⟨i.token, place'⟩ :: us, rfl, ?_⟩
  rw [List.map_cons, List.map_cons, hus, Ident.tailTokens_cons]

theorem PartsAhead.ne_lparen {is : List Ident} (h : PartsAhead is ls rest)
    (hrest : ∀ l ∈ rest.head?, l.token ≠ .symbol .lparen) :
    ∀ l ∈ ls.head?, l.token ≠ .symbol .lparen := by
  obtain ⟨us, rfl, hus⟩ := h
  cases is with
  | nil =>
    rw [Spells.of_nil hus]
    exact hrest
  | cons i is =>
    obtain ⟨place, us, rfl, -⟩ := Spells.of_cons hus
    simp

theorem of_nameTailIn {fuel : Nat} {front parts : List Ident} (hls : ∀ l ∈ ls, l.token.Lexed)
    (h : nameTailIn fuel front ls = .ok (parts, rest)) :
    ∃ is, parts = front ++ is ∧ PartsAhead is ls rest := by
  induction fuel generalizing front ls with
  | zero =>
    cases h
    exact ⟨[], by simp, .nil⟩
  | succ fuel ih =>
    obtain ⟨found, ls', hfound, hrun⟩ := of_bind_ok h
    obtain ⟨rfl, rfl, -⟩ | ⟨rfl, place, rfl⟩ := of_symbol? hfound
    · cases hrun
      exact ⟨[], by simp, .nil⟩
    have hpart : ∀ {i : Ident} {t : Token} {place' : Nat} {ls : List Lexeme},
        ls' = ⟨t, place'⟩ :: ls → t.ident? = some i →
        nameTailIn fuel (front ++ [i]) ls = .ok (parts, rest) →
        ∃ is, parts = front ++ is ∧ PartsAhead is (⟨.symbol .period, place⟩ :: ls') rest := by
      rintro i t place' ls rfl hi htail
      obtain ⟨rfl, -⟩ := hls ⟨t, place'⟩ (by simp) i hi
      obtain ⟨is, rfl, his⟩ := ih (fun l hl ↦ hls l (by simp [hl])) htail
      exact ⟨i :: is, by simp, his.cons place place'⟩
    have hnext := of_peek hrun
    generalize hhead : ls'.head?.map Lexeme.token = next at hnext
    split at hnext
    · obtain ⟨place', ls, rfl⟩ := exists_of_head hhead
      exact hpart rfl rfl hnext
    · obtain ⟨place', ls, rfl⟩ := exists_of_head hhead
      exact hpart rfl rfl hnext
    · cases hnext
    · cases hnext

/-- A name in front of a parenthesis is that of a function, and no column. -/
theorem of_nameTailIn_call {fuel : Nat} {name : Ident} {e : Expr} {parts : List Ident}
    (hls : ∀ l ∈ ls, l.token.Lexed) (h : (do
      let parts ← nameTailIn fuel [name]
      if ← nextIsSymbol .lparen then return (← call n parts).toExpr else return .column parts :
        Rule Expr) ls = .ok (e, rest)) (hname : e.name? = some parts) :
    ∃ is, parts = name :: is ∧ PartsAhead is ls rest ∧
      ∀ l ∈ ls.head?, l.token ≠ .symbol .lparen := by
  obtain ⟨parts', ls', htail, hrun⟩ := of_bind_ok h
  obtain ⟨is, rfl, his⟩ := of_nameTailIn hls htail
  by_cases hparen : ∀ l ∈ ls'.head?, l.token ≠ .symbol .lparen
  · rw [bind_ok (nextIsSymbol_eq_false hparen)] at hrun
    cases hrun
    obtain rfl : name :: is = parts := Option.some.inj hname
    exact ⟨is, rfl, his, his.ne_lparen hparen⟩
  · obtain ⟨l, hl, ht⟩ : ∃ l ∈ ls'.head?, l.token = .symbol .lparen := by simpa using hparen
    obtain ⟨ls'', rfl⟩ := List.head?_eq_some_iff.1 hl
    rw [bind_ok (nextIsSymbol_eq_true ht _)] at hrun
    have hcall : (do return (← call n (name :: is)).toExpr : Rule Expr) (l :: ls'') =
        .ok (e, rest) := hrun
    rw [findsNoColumn_call n _ _ _ _ hcall] at hname
    cases hname

/-- A column behind its first word is read to the end of its name. -/
theorem of_nameExpression {name : Ident} {e : Expr} {parts : List Ident}
    (hls : ∀ l ∈ ls, l.token.Lexed) (h : nameExpression n name ls = .ok (e, rest))
    (hname : e.name? = some parts) : ∃ is, parts = name :: is ∧ PartsAhead is ls rest ∧
      ∀ l ∈ ls.head?, l.token ≠ .symbol .lparen := by
  have halone : e = .column [name] → rest = ls → (∀ l ∈ ls.head?, l.token ≠ .symbol .lparen) →
      ∃ is, parts = name :: is ∧ PartsAhead is ls rest ∧
        ∀ l ∈ ls.head?, l.token ≠ .symbol .lparen := by
    rintro rfl rfl hparen
    obtain rfl : [name] = parts := Option.some.inj hname
    exact ⟨[], rfl, .nil, hparen⟩
  have hnext := of_peek (show (peek >>= _) ls = _ from h)
  have hnot : ls.head?.map Lexeme.token ≠ some (.symbol .lparen) →
      ∀ l ∈ ls.head?, l.token ≠ .symbol .lparen := by
    intro hne l hl ht
    rw [Option.mem_def.1 hl] at hne
    exact hne (congrArg some ht)
  generalize hhead : ls.head?.map Lexeme.token = next at hnext hnot
  split at hnext
  · exact of_nameTailIn_call hls hnext hname
  · exact of_nameTailIn_call hls hnext hname
  · split at hnext
    · cases hnext
      cases hname
    · cases hnext
      exact halone rfl rfl (hnot (by simp))
  · next hlparen _ _ =>
    cases hnext
    exact halone rfl rfl (hnot fun heq ↦ hlparen heq)

/-! ## First words -/

theorem ne_none_of_map {α β : Type} {r : Rule β} {f : β → α} {found : Option α}
    (h : (do return some (f (← r)) : Rule (Option α)) ls = .ok (found, rest)) : found ≠ none := by
  obtain ⟨b, ls', -, hrun⟩ := of_bind_ok h
  cases hrun
  simp

theorem of_ite_nextIsSymbol {s : Symbol} {r : Rule Expr}
    (h : (do if ← nextIsSymbol s then return some (← r) else return none : Rule (Option Expr)) ls =
      .ok (none, rest)) : rest = ls := by
  obtain ⟨found, ls', hfound, hrun⟩ := of_bind_ok h
  cases hfound
  split at hrun
  · exact absurd rfl (ne_none_of_map hrun)
  · cases hrun
    rfl

/-- Where a keyword opens no form, nothing has been taken, and the keyword is no value. -/
theorem of_keywordForm_none {start : Option Nat} {name : Ident} {k : Keyword}
    (h : keywordForm n start name k ls = .ok (none, rest)) :
    rest = ls ∧ k ∉ valueKeys ++ properKeywords := by
  unfold keywordForm at h
  split at h
  any_goals exact absurd rfl (ne_none_of_map h)
  any_goals exact ⟨of_ite_nextIsSymbol h, by decide⟩
  any_goals cases h
  · obtain ⟨found, ls', hfound, hrun⟩ := of_bind_ok h
    obtain ⟨rfl, rfl, -⟩ | ⟨rfl, -⟩ := of_symbol? hfound
    · exact ⟨of_ite_nextIsSymbol hrun, by decide⟩
    · exact absurd rfl (ne_none_of_map hrun)
  · split at h
    · exact absurd rfl (ne_none_of_map h)
    · cases h
      exact ⟨rfl, by decide⟩
  · refine ⟨rfl, ?_⟩
    simp only [valueKeys, properKeywords, List.cons_append, List.nil_append, List.mem_cons,
      List.not_mem_nil, or_false, not_or]
    and_intros <;> assumption

/-- A keyword that is a value by itself is one wherever no list of arguments follows. -/
theorem keywordForm_of_mem_valueKeys {k : Keyword} (hk : k ∈ valueKeys)
    (hls : ∀ l ∈ ls.head?, l.token ≠ .symbol .lparen) (start : Option Nat) (name : Ident) :
    ∃ e, keywordForm n start name k ls = .ok (some e, ls) := by
  have hcurrent : currentValue n name ls = .ok ((Phrase.name [name]).toExpr, ls) := by
    rw [currentValue, bind_ok (symbol?_eq_false hls)]
    rfl
  have hfound : (do return some (← currentValue n name) : Rule (Option Expr)) ls =
      .ok (some (Phrase.name [name]).toExpr, ls) := bind_ok hcurrent
  simp only [valueKeys, List.mem_cons, List.not_mem_nil, or_false] at hk
  rcases hk with rfl | rfl | rfl | rfl | rfl | rfl | rfl | rfl | rfl | rfl | rfl | rfl <;>
    first
    | exact ⟨_, rfl⟩
    | exact ⟨_, hfound⟩

/-- A word that is read as a column is a name of its own. -/
theorem of_wordExpression {start : Option Nat} {name : Ident} {key : Option Keyword} {e : Expr}
    {open? : Bool} {parts : List Ident} (hls : ∀ l ∈ ls, l.token.Lexed)
    (h : wordExpression n start name key ls = .ok ((e, open?), rest))
    (hname : e.name? = some parts) :
    nameExpression n name ls = .ok (e, rest) ∧ ∀ k ∈ key, k ∉ valueKeys ++ properKeywords := by
  cases key with
  | none =>
    obtain ⟨e', ls', hrun, hpure⟩ := of_bind_ok h
    cases hpure
    exact ⟨hrun, by simp⟩
  | some k =>
    have hform : ∀ {next : Option Expr → Rule (Expr × Bool)},
        (keywordForm n start name k >>= next) ls = .ok ((e, open?), rest) →
        (∀ e', next (some e') = return (e', true)) →
        k ∉ valueKeys ++ properKeywords ∧ next none ls = .ok ((e, open?), rest) := by
      intro next hrun hfound?
      obtain ⟨found, ls', hfound, hrun'⟩ := of_bind_ok hrun
      cases found with
      | some e' =>
        rw [hfound?] at hrun'
        cases hrun'
        rw [gives_keywordForm n _ _ _ _ _ _ hfound e rfl] at hname
        cases hname
      | none =>
        obtain ⟨rfl, hk⟩ := of_keywordForm_none hfound
        exact ⟨hk, hrun'⟩
    have halone : ∀ {b : Bool}, (do return (← nameExpression n name, b) : Rule (Expr × Bool)) ls =
        .ok ((e, open?), rest) → nameExpression n name ls = .ok (e, rest) := by
      intro b hrun
      obtain ⟨e', ls', hrun', hpure⟩ := of_bind_ok hrun
      cases hpure
      exact hrun'
    -- A form that is found is no column, so none has been found, or its rule has failed and the
    -- keyword has been read as a name for that reason.
    unfold wordExpression at h
    dsimp only at h
    split at h
    · next hproper =>
      obtain ⟨hk, -⟩ := hform h fun _ ↦ rfl
      exact absurd (List.mem_append_right _ (by simpa using hproper)) hk
    · next hproper =>
      obtain hrun | ⟨⟨e', herror⟩, hrun⟩ := of_orTry h
      · obtain ⟨hk, hrun'⟩ := hform hrun fun _ ↦ rfl
        exact ⟨halone hrun', by simpa using hk⟩
      · have hrun' := halone hrun
        refine ⟨hrun', ?_⟩
        rintro k' ⟨⟩ hk
        rcases List.mem_append.1 hk with hk | hk
        · obtain ⟨_, _, _, hparen⟩ := of_nameExpression hls hrun' hname
          obtain ⟨e'', hvalue⟩ := keywordForm_of_mem_valueKeys (n := n) hk hparen start name
          rw [bind_ok hvalue] at herror
          cases herror
        · exact hproper (by simpa using hk)

/-! ## Parentheses -/

theorem ne_nil_of_separatedIn {α : Type} {separator : Rule Bool} {item : Rule α} {fuel : Nat}
    {items : List α} (h : separatedIn separator item fuel ls = .ok (items, rest)) : items ≠ [] := by
  cases fuel with
  | zero =>
    obtain ⟨a, ls', -, hrun⟩ := of_bind_ok h
    cases hrun
    simp
  | succ fuel =>
    obtain ⟨a, ls', -, hrun⟩ := of_bind_ok h
    obtain ⟨found, ls'', -, hrun'⟩ := of_bind_ok hrun
    split at hrun'
    · obtain ⟨others, ls₃, -, hpure⟩ := of_bind_ok hrun'
      cases hpure
      simp
    · cases hrun'
      simp

/-- A list with one item is that item. -/
theorem of_expressions_one {e : Expr} (h : n.expressions ls = .ok ([e], rest)) :
    n.expression ls = .ok (e, rest) := by
  have hitem : ∀ fuel, separatedIn (symbol? .comma) n.expression fuel ls = .ok ([e], rest) →
      n.expression ls = .ok (e, rest) := by
    intro fuel hrun
    cases fuel with
    | zero =>
      obtain ⟨e', ls', he, hpure⟩ := of_bind_ok hrun
      cases hpure
      exact he
    | succ fuel =>
      obtain ⟨e', ls', he, hrun'⟩ := of_bind_ok hrun
      obtain ⟨found, ls'', hfound, hrun''⟩ := of_bind_ok hrun'
      obtain ⟨rfl, rfl, -⟩ | ⟨rfl, -⟩ := of_symbol? hfound
      · cases hrun''
        exact he
      · rw [if_pos rfl] at hrun''
        obtain ⟨others, ls₃, hothers, hpure⟩ := of_bind_ok hrun''
        cases hpure
        exact absurd rfl (ne_nil_of_separatedIn hothers)
  exact hitem ls.length h

theorem of_fieldOf {e e' : Expr} (h : fieldOf e ls = .ok (e', rest))
    (hname : e'.name? ≠ none) : e' = e ∧ rest = ls := by
  unfold fieldOf at h
  split at h
  · cases h
    exact absurd rfl hname
  · cases h
  · cases h
    exact ⟨rfl, rfl⟩

theorem readsNames_parenthesizedExpression (hn : ReadsNames n.expression) {place : Nat}
    {e : Expr} {parts : List Ident} (hls : ∀ l ∈ ls, l.token.Lexed)
    (h : parenthesizedExpression n (⟨.symbol .lparen, place⟩ :: ls) = .ok (e, rest))
    (hname : e.name? = some parts) : ∃ us, ⟨.symbol .lparen, place⟩ :: ls = us ++ rest ∧
      NamesColumn parts (us.map Lexeme.token) := by
  obtain ⟨_, _, hskip, hrun⟩ := of_bind_ok h
  cases hskip
  obtain ⟨inner, ls₁, hinner, hrun₁⟩ := of_bind_ok hrun
  obtain ⟨_, ls₂, hclosing, hfield⟩ := of_bind_ok hrun₁
  obtain ⟨rfl, rfl⟩ := of_fieldOf hfield (by simp [hname])
  obtain ⟨closing, rfl⟩ := of_symbol hclosing
  obtain ⟨query, ls₃, hquery, hrun₂⟩ := of_bind_ok hinner
  cases hquery
  split at hrun₂
  · obtain ⟨q, ls₄, -, hpure⟩ := of_bind_ok hrun₂
    cases hpure
    cases hname
  · obtain ⟨es, ls₄, hes, hpure⟩ := of_bind_ok hrun₂
    split at hpure
    · next e' =>
      cases hpure
      obtain ⟨us, rfl, hus⟩ := hn hls (of_expressions_one hes) hname
      refine ⟨⟨.symbol .lparen, place⟩ :: (us ++ [⟨.symbol .rparen, closing⟩]), by simp, ?_⟩
      simpa using hus.nested
    · cases hpure
      cases hname

/-! ## Operands -/

theorem readsNames_plainOperand (hn : ReadsNames n.expression) : ReadsNames (plainOperand n) := by
  intro ts e rest parts hts h hname
  have hnot : ∀ {r : Rule Expr}, FindsNoColumn r → r ts ≠ .ok (e, rest) := by
    intro r hr hrun
    rw [hr _ _ _ hrun] at hname
    cases hname
  have hliteral : FindsNoColumn (do return .literal (← value)) := .last fun _ ↦ .pure rfl
  have hsigned : ∀ op, FindsNoColumn (signed n op) := fun op ↦ .last fun _ ↦ .last fun _ ↦ .pure rfl
  have hnext := of_peek (show (peek >>= _) ts = _ from h)
  generalize hhead : ts.head?.map Lexeme.token = next at hnext
  split at hnext
  · exact absurd hnext (hnot (.last fun _ ↦ findsNoColumn_arrayExpression n _))
  · exact absurd hnext (hnot (hsigned _))
  · exact absurd hnext (hnot (hsigned _))
  · exact absurd hnext (hnot hliteral)
  · exact absurd hnext (hnot hliteral)
  · exact absurd hnext (hnot hliteral)
  · exact absurd hnext (hnot hliteral)
  · exact absurd hnext (hnot hliteral)
  · obtain ⟨place, ls, rfl⟩ := exists_of_head hhead
    exact readsNames_parenthesizedExpression hn (fun l hl ↦ hts l (by simp [hl])) hnext hname
  · exact absurd hnext (hnot (findsNoColumn_bracesExpression n))
  · cases hnext

theorem of_bareOperand (hn : ReadsNames n.expression) {e : Expr} {open? : Bool}
    {parts : List Ident} (hts : ∀ l ∈ ts, l.token.Lexed)
    (h : bareOperand n ts = .ok ((e, open?), rest)) (hname : e.name? = some parts) :
    ∃ us, ts = us ++ rest ∧ NamesColumn parts (us.map Lexeme.token) := by
  obtain ⟨found, ts', hfound, hrun⟩ := of_bind_ok h
  cases found with
  | some e' =>
    cases hrun
    have hnone := Gives.attempt (findsNoColumn_typedLiteral n) _ _ _ hfound e rfl
    rw [hnone] at hname
    cases hname
  | none =>
    obtain rfl := of_attempt_none hfound
    obtain ⟨start, _, hstart, hrun'⟩ := of_bind_ok (show (here >>= _) ts' = _ from hrun)
    cases hstart
    have hnext := of_peek (show (peek >>= _) ts' = _ from hrun')
    generalize hhead : ts'.head?.map Lexeme.token = next at hnext
    split at hnext
    · next name key =>
      obtain ⟨place, ls, rfl⟩ := exists_of_head hhead
      have hls : ∀ l ∈ ls, l.token.Lexed := fun l hl ↦ hts l (by simp [hl])
      obtain ⟨hrun', hkey⟩ := of_wordExpression hls hnext hname
      obtain ⟨is, rfl, ⟨us, rfl, hus⟩, -⟩ := of_nameExpression hls hrun' hname
      obtain ⟨htoken, -⟩ := hts ⟨.word name key, place⟩ (by simp) name rfl
      have hopens : name.Opens := by
        refine ⟨fun hsingle ↦ ?_, fun k hk ↦ hkey k ?_⟩
        · rw [Ident.token, hsingle] at htoken
          cases htoken
        · rwa [htoken] at hk
      refine ⟨⟨.word name key, place⟩ :: us, rfl, ?_⟩
      rw [List.map_cons, hus, ← htoken]
      exact .name hopens is
    · obtain ⟨e', ts'', hplain, hpure⟩ := of_bind_ok hnext
      cases hpure
      exact readsNames_plainOperand hn hts hplain hname

theorem of_collated {e e' : Expr} (h : collated e ls = .ok (e', rest))
    (hname : e'.name? ≠ none) : e' = e ∧ rest = ls := by
  obtain ⟨found, ls', hfound, hrun⟩ := of_bind_ok h
  cases found with
  | some name =>
    cases hrun
    exact absurd rfl hname
  | none =>
    cases hrun
    obtain ⟨next, ls'', hnext, hrun'⟩ := of_bind_ok hfound
    split at hrun'
    · exact absurd rfl (ne_none_of_map hrun')
    · cases hrun'
      obtain ⟨found, ls₃, hkey, hrun''⟩ := of_bind_ok hnext
      cases hkey
      split at hrun''
      · cases hrun''
        contradiction
      · cases hrun''
        exact ⟨rfl, rfl⟩

theorem expression_nestedIn (inHierarchy : Bool) (expr : Nat → Rule Expr) (hierarchic : Rule Expr)
    (query : Rule Phrase) (fuel : Nat) :
    (nestedIn inHierarchy expr hierarchic query fuel).expression = expr 0 := by
  cases fuel <;> rfl

theorem readsNames_operand_of {inHierarchy : Bool} {expr : Nat → Rule Expr}
    {hierarchic : Rule Expr} {query : Rule Phrase} (h : ReadsNames (expr 0)) :
    ReadsNames (Nested.of inHierarchy expr hierarchic query).operand := by
  intro ts e rest parts hts hrun hname
  obtain ⟨⟨e', open?⟩, ts', hbare, hrun'⟩ := of_bind_ok
    (show (bareOperand (nestedIn inHierarchy expr hierarchic query ts.length) >>= _) ts = _
      from hrun)
  have hn : ReadsNames (nestedIn inHierarchy expr hierarchic query ts.length).expression := by
    rwa [expression_nestedIn]
  cases open? with
  | true =>
    obtain ⟨rfl, rfl⟩ := of_collated hrun' (by simp [hname])
    exact of_bareOperand hn hts hbare hname
  | false =>
    cases hrun'
    exact of_bareOperand hn hts hbare hname

/-! ## Expressions -/

/-- Operators make no column of what stands in front of them. -/
theorem of_climb {level fuel : Nat} {left e : Expr} {parts : List Ident}
    (h : climb n level fuel left ls = .ok (e, rest)) (hname : e.name? = some parts) :
    e = left ∧ rest = ls := by
  induction fuel generalizing left ls with
  | zero =>
    cases h
    exact ⟨rfl, rfl⟩
  | succ fuel ih =>
    rw [climb, bind_ok (nextLevel_eq ls)] at h
    have hrun : (if follow ls ≤ level then pure left else
      infixExpression n left (follow ls) >>= climb n level fuel : Rule Expr) ls = _ := h
    split at hrun
    · cases hrun
      exact ⟨rfl, rfl⟩
    · obtain ⟨e', ls'', hinfix, hrun'⟩ := of_bind_ok hrun
      obtain ⟨rfl, rfl⟩ := ih hrun'
      rw [findsNoColumn_infixExpression n _ _ _ _ _ hinfix] at hname
      cases hname

theorem readsNames_expressionAt (h : ReadsNames n.operand) (level : Nat) :
    ReadsNames fun ts ↦ expressionAt n level ts := by
  intro ts e rest parts hts hrun hname
  obtain ⟨fuel, _, hfuel, hrun₁⟩ := of_bind_ok (show expressionAt n level ts = _ from hrun)
  cases hfuel
  obtain ⟨left, ts', hleft, hrun₂⟩ := of_bind_ok hrun₁
  obtain ⟨rfl, rfl⟩ := of_climb hrun₂ hname
  exact h hts hleft hname

/-- A column that an expression begins with stands there as a name, perhaps in parentheses. -/
theorem readsNames_nested (inHierarchy : Bool) (depth level : Nat) :
    ReadsNames ((nested inHierarchy depth).expr level) := by
  have hoperand : ∀ depth, ReadsNames ((nested inHierarchy depth).expr 0) →
      ReadsNames (nested inHierarchy depth).operand := fun depth h ↦ by
    cases depth <;> exact readsNames_operand_of h
  induction depth generalizing level with
  | zero =>
    intro ts e rest parts hts hrun
    cases hrun
  | succ depth ih => exact readsNames_expressionAt (hoperand depth (ih 0)) level

end Grammar

end Funnel.Sql
