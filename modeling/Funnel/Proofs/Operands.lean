import Mathlib
import Funnel.Proofs.Starts

/-!
# Operands

Which operand the reader finds at the front of the tokens of an expression, given that it reads what
is nested in the operand (`ReadsNested`).
-/

namespace Funnel.Sql.Grammar

open Rule

variable {α : Type}

/-! ## Levels -/

/-- The level of what comes next. -/
def follow : List Lexeme → Nat
  | ⟨.symbol s, _⟩ :: _ => symbolLevel s
  | ⟨.word _ (some k), _⟩ :: rest =>
    keywordLevel k ((rest[0]?.map Lexeme.token).bind Token.key?)
      ((rest[1]?.map Lexeme.token).bind Token.key?)
  | _ => 0

theorem nextLevel_eq (rest : List Lexeme) : nextLevel rest = .ok (follow rest, rest) := by
  rcases rest with _ | ⟨⟨t, p⟩, rest⟩
  · rfl
  cases t with
  | word name k => cases k <;> rfl
  | _ => rfl

theorem floor_pos {e : Expr} (h : e.Grouped) : 0 < e.floor := by
  have hlevel : ∀ op : Infix, 0 < op.level := by
    intro op
    cases op with
    | binary op => cases op <;> decide
    | logical op => cases op <;> decide
  induction h with
  | sign hop h hfloor ih =>
    rename_i op e
    cases op with
    | not => exact absurd rfl hop
    | _ => simp [Expr.floor]
  | operator op hl hr hedge hfloor ihl ihr =>
    have := hlevel op
    rw [Expr.floor_apply]
    omega
  | _ => simp only [Expr.floor]; omega

/-- The rules for what is nested read an expression back, up to an operator that is left to
others. -/
def ReadsNested (n : Nested) (e : Expr) : Prop :=
  ∀ level ts rest, Spells ts e.tokens → Ends rest → level < e.floor → follow rest ≤ level →
    n.expr level (ts ++ rest) = .ok (e, rest)

variable {n : Nested}

/-- An expression in front of a sign that is no operator. -/
theorem ReadsNested.expression_eq {e : Expr} (h : ReadsNested n e) (he : e.Grouped)
    {ts rest : List Lexeme} (hts : Spells ts e.tokens) (hrest : Ends rest)
    (hfollow : follow rest = 0) : n.expression (ts ++ rest) = .ok (e, rest) :=
  h 0 ts rest hts hrest (floor_pos he) hfollow.le

/-! ## First words -/

theorem bareOperand_word (n : Nested) (name : Ident) {key : Option Keyword} (place : Nat)
    {ls : List Lexeme} (hkey : ∀ k ∈ key, k ∈ openingKeys)
    (hplain : ∀ l ∈ ls, l.token ≠ .symbol .lbracket) :
    bareOperand n (⟨.word name key, place⟩ :: ls) = wordExpression n (some place) name key ls := by
  have hword : ∀ k ∈ (Token.word name key).key?, k ∈ openingKeys := hkey
  rw [bareOperand, bind_ok (attempt_typedLiteral n hword hplain)]
  rfl

theorem bareOperand_plain (n : Nested) {t : Token} (place : Nat) {ls : List Lexeme}
    (ht : ∀ name key, t ≠ .word name key) (hplain : ∀ l ∈ ls, l.token ≠ .symbol .lbracket)
    {e : Expr} {rest : List Lexeme} (he : plainOperand n (⟨t, place⟩ :: ls) = .ok (e, rest)) :
    bareOperand n (⟨t, place⟩ :: ls) = .ok ((e, true), rest) := by
  have hkey : ∀ k ∈ t.key?, k ∈ openingKeys := by
    cases t with
    | word name key => exact absurd rfl (ht name key)
    | _ => simp [Token.key?]
  rw [bareOperand, bind_ok (attempt_typedLiteral n hkey hplain)]
  have hrun : (do return (← plainOperand n, true) : Rule (Expr × Bool)) (⟨t, place⟩ :: ls) =
      .ok ((e, true), rest) := (bind_ok he).trans rfl
  cases t with
  | word name key => exact absurd rfl (ht name key)
  | _ => exact hrun

theorem wordExpression_of_keywordForm {start : Option Nat} {name : Ident} {k : Keyword}
    {ls rest : List Lexeme} {e : Expr} (hk : k ∉ properKeywords)
    (h : keywordForm n start name k ls = .ok (some e, rest)) :
    wordExpression n start name (some k) ls = .ok ((e, true), rest) := by
  have hk' : properKeywords.contains k = false := by simpa using hk
  unfold wordExpression
  simp only [hk']
  exact orTry_eq_ok ((bind_ok h).trans rfl)

/-! ## Leaves -/

section

variable {ts rest : List Lexeme}

theorem ne_lbracket_append (hts : ∀ l ∈ ts, l.token ≠ .symbol .lbracket) (hrest : Ends rest) :
    ∀ l ∈ ts ++ rest, l.token ≠ .symbol .lbracket := fun l hl ↦
  (List.mem_append.1 hl).elim (hts l) (hrest.plain l)

theorem bareOperand_number (m : Numeral) (hts : Spells ts (Expr.literal (.number m false)).tokens)
    (hrest : Ends rest) :
    bareOperand n (ts ++ rest) = .ok ((.literal (.number m false), true), rest) := by
  obtain ⟨p, ts', rfl, hnil⟩ := hts.of_cons
  rw [hnil.of_nil]
  exact bareOperand_plain n p (by simp) hrest.plain rfl

theorem bareOperand_string (text : String)
    (hts : Spells ts (Expr.literal (.string .plain text)).tokens) (hrest : Ends rest) :
    bareOperand n (ts ++ rest) = .ok ((.literal (.string .plain text), true), rest) := by
  obtain ⟨p, ts', rfl, hnil⟩ := hts.of_cons
  rw [hnil.of_nil]
  exact bareOperand_plain n p (by simp) hrest.plain rfl

/-- A literal that is a keyword. -/
theorem bareOperand_key {written : String} {k : Keyword} {e : Expr} (hk : k ∈ openingKeys)
    (hts : Spells ts [keyToken written k]) (hrest : Ends rest)
    (hform : ∀ start name ls, keywordForm n start name k ls = .ok (some e, ls)) :
    bareOperand n (ts ++ rest) = .ok ((e, true), rest) := by
  have hproper : ∀ k ∈ openingKeys, k ∉ properKeywords := by decide
  obtain ⟨p, ts', rfl, hnil⟩ := Spells.of_cons hts
  rw [hnil.of_nil, List.singleton_append, keyToken,
    bareOperand_word n _ p (by simpa using hk) hrest.plain]
  exact wordExpression_of_keywordForm (hproper k hk) (hform _ _ _)

/-! ## Columns and calls -/

theorem length_of_spells_tailTokens {parts : List Ident} (hts : Spells ts (tailTokens parts)) :
    ts.length = 2 * parts.length := by
  have h : (ts.map Lexeme.token).length = (tailTokens parts).length := congrArg List.length hts
  simpa [tailTokens, Nat.mul_comm] using h

theorem nameExpression_column {name : Ident} {parts : List Ident}
    (hts : Spells ts (tailTokens parts)) (hrest : Ends rest) :
    nameExpression n name (ts ++ rest) = .ok (.column (name :: parts), rest) := by
  cases parts with
  | nil =>
    rw [hts.of_nil, List.nil_append]
    rcases rest with _ | ⟨⟨t, p⟩, rest⟩
    · rfl
    have ht := hrest.head _ rfl
    have hleaf : ∀ t ∈ followers, t ≠ .symbol .lparen ∧ t ≠ .symbol .period ∧
        ∀ style text, t ≠ .string style text := by
      simp [followers, keyToken]
    obtain ⟨hparen, hperiod, hstring⟩ := hleaf t ht
    unfold nameExpression
    rw [bind_ok rfl]
    refine (congrFun (?_ : _ = (return .column [name] : Rule Expr)) _).trans rfl
    split
    · next heq => exact absurd (Option.some.inj heq) hparen
    · next heq => exact absurd (Option.some.inj heq) hperiod
    · next heq => exact absurd (Option.some.inj heq) (hstring _ _)
    · rfl
  | cons part parts =>
    have hlength : (part :: parts).length ≤ (ts ++ rest).length := by
      have := length_of_spells_tailTokens hts
      simp only [List.length_append]
      omega
    have hname := nameTailIn_eq hts (hrest.ne_symbol (by decide)) hlength [name]
    obtain ⟨p, ts', rfl, -⟩ := hts.of_cons
    rw [nameExpression, bind_ok rfl]
    show (nameTailIn _ _ >>= _) _ = _
    rw [bind_ok hname, bind_ok (nextIsSymbol_eq_false (hrest.ne_symbol (by decide)))]
    rfl

/-- Expressions with commas between them, in front of the end of a list. -/
theorem separatedIn_comma_eq {r : Rule α} {f : Expr → α} {first : Expr} {others : List Expr}
    (hr : ∀ e ∈ first :: others, ∀ ts rest, Spells ts e.tokens → Ends rest → follow rest = 0 →
      r (ts ++ rest) = .ok (f e, rest))
    (hts : Spells ts (first.tokens ++ (others.map Expr.tokens).flatMap (.symbol .comma :: ·)))
    (hplain : ∀ l ∈ ts, l.token ≠ .symbol .lbracket) {place : Nat} (hrest : Ends rest) {fuel : Nat}
    (hfuel : others.length ≤ fuel) :
    separatedIn (symbol? .comma) r fuel (ts ++ ⟨.symbol .rparen, place⟩ :: rest) =
      .ok (f first :: others.map f, ⟨.symbol .rparen, place⟩ :: rest) := by
  induction others generalizing first ts fuel with
  | nil =>
    simp only [List.map_nil, List.flatMap_nil, List.append_nil] at hts
    have hfirst := hr first List.mem_cons_self ts (⟨.symbol .rparen, place⟩ :: rest) hts
      (.cons (by decide) hrest.plain) rfl
    cases fuel with
    | zero => exact (bind_ok hfirst).trans rfl
    | succ fuel =>
      rw [separatedIn, bind_ok hfirst, bind_ok (symbol?_eq_false (by simp))]
      rfl
  | cons second others ih =>
    obtain ⟨ts₁, ts₂, rfl, hts₁, hts₂⟩ := hts.of_append
    obtain ⟨p, ts₃, rfl, hts₃⟩ := Spells.of_cons hts₂
    have hplain₃ : ∀ l ∈ ts₃, l.token ≠ .symbol .lbracket := fun l hl ↦ hplain l (by simp [hl])
    have hend : Ends (⟨.symbol .rparen, place⟩ :: rest) := .cons (by decide) hrest.plain
    have hfirst := hr first List.mem_cons_self ts₁
      (⟨.symbol .comma, p⟩ :: (ts₃ ++ ⟨.symbol .rparen, place⟩ :: rest)) hts₁
      (.cons (by decide) (ne_lbracket_append hplain₃ hend)) rfl
    obtain _ | fuel := fuel
    · simp at hfuel
    have hothers := ih (fun e he ↦ hr e (List.mem_cons_of_mem _ he)) hts₃ hplain₃
      (Nat.le_of_succ_le_succ hfuel)
    rw [List.append_assoc, List.cons_append, separatedIn, bind_ok hfirst,
      bind_ok (symbol?_eq_true .comma p _)]
    exact (bind_ok hothers).trans rfl

theorem commaSeparated_eq {r : Rule α} {f : Expr → α} {first : Expr} {others : List Expr}
    (hr : ∀ e ∈ first :: others, ∀ ts rest, Spells ts e.tokens → Ends rest → follow rest = 0 →
      r (ts ++ rest) = .ok (f e, rest))
    (hts : Spells ts ([.symbol .comma].intercalate (Expr.tokensAll (first :: others))))
    (hplain : ∀ l ∈ ts, l.token ≠ .symbol .lbracket) (place : Nat) (hrest : Ends rest) :
    commaSeparated r (ts ++ ⟨.symbol .rparen, place⟩ :: rest) =
      .ok (f first :: others.map f, ⟨.symbol .rparen, place⟩ :: rest) := by
  rw [Expr.tokensAll_eq_map, List.map_cons, intercalate_cons_eq_flatMap] at hts
  refine (bind_ok rfl).trans (separatedIn_comma_eq hr hts hplain hrest ?_)
  have hlength : ts.length = _ := (List.length_map _).symm.trans (congrArg List.length hts)
  have hcommas : others.length ≤
      ((others.map Expr.tokens).flatMap (Token.symbol .comma :: ·)).length := by
    clear hr hts hlength
    induction others with
    | nil => simp
    | cons e others ih => simp only [List.map_cons, List.flatMap_cons, List.length_append,
        List.length_cons]; omega
  simp only [List.length_append] at hlength ⊢
  omega

theorem identifier_takes_one {l : Lexeme} {ls rest : List Lexeme} {name : Ident}
    (h : identifier (l :: ls) = .ok (name, rest)) : rest = ls := by
  obtain ⟨t, p⟩ := l
  cases t with
  | word name key => cases h; rfl
  | string style text => cases style <;> cases h; rfl
  | _ => cases h

/-- No argument has a name. -/
theorem attempt_namedArgument {ls : List Lexeme} (h : Starts ls) :
    attempt (namedArgument n) ls = .ok (none, ls) := by
  obtain ⟨l, ls, rfl⟩ := List.exists_cons_of_ne_nil h.ne_nil
  have hsecond : ∀ l ∈ ls.head?, l.token ≠ .symbol .fatArrow ∧ l.token ≠ .symbol .assign ∧
    ∀ k ∈ l.token.key?, k ∉ foreignKeys := h.second
  cases hname : identifier (l :: ls) with
  | error e =>
    have hdeep := Shallow.identifier (l :: ls)
    rw [hname] at hdeep
    exact attempt_eq_none (bind_error hname) hdeep
  | ok found =>
    obtain ⟨name, rest⟩ := found
    obtain rfl := identifier_takes_one hname
    refine attempt_eq_none (e := .expected .argumentOperator rest.head?) ?_ (by simp)
    rw [namedArgument, bind_ok hname, bind_error]
    rw [bind_ok (symbol?_eq_false fun l hl ↦ (hsecond l hl).1)]
    show (symbol? _ >>= _) _ = _
    rw [bind_ok (symbol?_eq_false fun l hl ↦ (hsecond l hl).2.1)]
    show (key? _ >>= _) _ = _
    rw [bind_ok (key?_eq_false fun l hl hk ↦ (hsecond l hl).2.2 _ hk (by decide))]
    rfl

/-- An argument of a call. -/
theorem argument_eq {e : Expr} (h : ReadsNested n e) (he : e.Grouped)
    (hts : Spells ts e.tokens) (hrest : Ends rest) (hfollow : follow rest = 0) :
    argument n (ts ++ rest) = .ok (.plain e, rest) := by
  have hstarts := starts_tokens he hts hrest
  obtain ⟨ls, hwild⟩ := hstarts.wildcard
  rw [argument, bind_ok (attempt_namedArgument hstarts)]
  show wildcardOr n _ = _
  rw [wildcardOr, hwild]
  exact (bind_ok (h.expression_eq he hts hrest hfollow)).trans rfl

/-- A list of expressions starts as its first one does. -/
theorem starts_items {first : Expr} {others : List Expr} (h : ∀ e ∈ first :: others, e.Grouped)
    (hts : Spells ts ([.symbol .comma].intercalate (Expr.tokensAll (first :: others))))
    (hrest : Ends rest) : Starts (ts ++ rest) := by
  have hplain := ne_lbracket_items h hts
  rw [Expr.tokensAll_eq_map, List.map_cons, intercalate_cons_eq_flatMap] at hts
  obtain ⟨ts₁, ts₂, rfl, hts₁, hts₂⟩ := hts.of_append
  rw [List.append_assoc]
  refine starts_tokens (h first List.mem_cons_self) hts₁ ?_
  cases others with
  | nil =>
    rw [Spells.of_nil hts₂]
    exact hrest
  | cons second others =>
    obtain ⟨p, ts₃, rfl, hts₃⟩ := Spells.of_cons hts₂
    exact .cons (by decide) (ne_lbracket_append (fun l hl ↦ hplain l (by simp [hl])) hrest)

theorem arguments_eq {args : List Expr} (hargs : ∀ e ∈ args, e.Grouped ∧ ReadsNested n e)
    (hts : Spells ts ([.symbol .comma].intercalate (Expr.tokensAll args))) (place : Nat)
    (hrest : Ends rest) :
    arguments n (ts ++ ⟨.symbol .rparen, place⟩ :: rest) =
      .ok (⟨none, args.map .plain, [], false⟩, rest) := by
  cases args with
  | nil =>
    rw [Spells.of_nil hts]
    rfl
  | cons first others =>
    have hgrouped : ∀ e ∈ first :: others, e.Grouped := fun e he ↦ (hargs e he).1
    have hend : Ends (⟨.symbol .rparen, place⟩ :: rest) := .cons (by decide) hrest.plain
    have hstarts := starts_items hgrouped hts hend
    have hitems := commaSeparated_eq (r := argument n) (f := Argument.plain)
      (fun e he ts rest hts hrest hfollow ↦
        argument_eq (hargs e he).2 (hgrouped e he) hts hrest hfollow)
      hts (ne_lbracket_items hgrouped hts) place hrest
    rw [arguments, bind_ok hstarts.nullsInObject_eq,
      bind_ok (symbol?_eq_false (hstarts.ne_symbol (by decide)))]
    show (duplicates >>= _) _ = _
    rw [bind_ok hstarts.duplicates_eq, bind_ok hitems]
    rfl

theorem mapM_plain? (args : List Expr) :
    (args.map Argument.plain).mapM Argument.plain? = some args := by
  induction args with
  | nil => rfl
  | cons e args ih => simp [Argument.plain?, ih]

/-- A call whose name has been read. -/
theorem call_eq {args : List Expr} (name : List Ident)
    (hargs : ∀ e ∈ args, e.Grouped ∧ ReadsNested n e)
    (hts : Spells ts ([.symbol .comma].intercalate (Expr.tokensAll args))) (opening closing : Nat)
    (hrest : Ends rest) :
    (do return (← call n name).toExpr : Rule Expr)
      (⟨.symbol .lparen, opening⟩ :: (ts ++ ⟨.symbol .rparen, closing⟩ :: rest)) =
      .ok (.call name args, rest) := by
  have hlists : argumentLists n
      (⟨.symbol .lparen, opening⟩ :: (ts ++ ⟨.symbol .rparen, closing⟩ :: rest)) =
      .ok ((none, ⟨none, args.map .plain, [], false⟩), rest) := by
    rw [argumentLists, bind_ok (symbol_eq .lparen opening _),
      bind_ok (arguments_eq hargs hts closing hrest),
      bind_ok (symbol?_eq_false (hrest.ne_symbol (by decide)))]
    rfl
  have hgroup : withinGroup n rest = .ok (none, rest) := by
    rw [withinGroup, bind_ok (keys?_eq_false (.inl (hrest.ne_key (by decide))))]
    rfl
  have hnulls : nullTreatment rest = .ok (none, rest) := by
    rw [nullTreatment, bind_ok (oneOfKeys?_eq_none (hrest.not_mem_key (by decide)))]
    rfl
  have hwindow : overWindow n rest = .ok (none, rest) := by
    rw [overWindow, bind_ok (key?_eq_false (hrest.ne_key (by decide)))]
    rfl
  have hplain : (⟨none, args.map .plain, [], false⟩ : Arguments).plain? = some args :=
    mapM_plain? args
  have hcall : ∃ written, call n name
      (⟨.symbol .lparen, opening⟩ :: (ts ++ ⟨.symbol .rparen, closing⟩ :: rest)) =
      .ok (⟨written, some (.call name args), true⟩, rest) := by
    rw [call, bind_ok hlists]
    show ∃ written, (withinGroup n >>= _) rest = _
    rw [bind_ok hgroup]
    show ∃ written, (nullTreatment >>= _) rest = _
    rw [bind_ok hnulls]
    show ∃ written, (overWindow n >>= _) rest = _
    rw [bind_ok hwindow]
    show ∃ written, Except.ok ((⟨_, Option.map _ (Arguments.plain? _), _⟩ : Call), rest) = _
    rw [hplain]
    exact ⟨_, rfl⟩
  obtain ⟨written, hcall⟩ := hcall
  exact (bind_ok hcall).trans rfl

/-- A call of a function with a plain name. -/
theorem nameExpression_call (name : Ident) {parts : List Ident} {args : List Expr}
    {front : List Lexeme} (hfront : Spells front (tailTokens parts))
    (hargs : ∀ e ∈ args, e.Grouped ∧ ReadsNested n e)
    (hts : Spells ts ([.symbol .comma].intercalate (Expr.tokensAll args))) (opening closing : Nat)
    (hrest : Ends rest) :
    nameExpression n name
        (front ++ ⟨.symbol .lparen, opening⟩ :: (ts ++ ⟨.symbol .rparen, closing⟩ :: rest)) =
      .ok (.call (name :: parts) args, rest) := by
  generalize hls : (⟨.symbol .lparen, opening⟩ :: (ts ++ ⟨.symbol .rparen, closing⟩ :: rest) :
    List Lexeme) = ls
  have hcall := call_eq (name :: parts) hargs hts opening closing hrest
  have hparen : nextIsSymbol .lparen ls = .ok (true, ls) := by rw [← hls]; rfl
  have hlength : parts.length ≤ (front ++ ls).length := by
    have := length_of_spells_tailTokens hfront
    simp only [List.length_append]
    omega
  have hperiod : ∀ l ∈ ls.head?, l.token ≠ .symbol .period := by
    rw [← hls]
    simp
  have hname := nameTailIn_eq hfront hperiod hlength [name]
  have hrun : (do
      let parts ← nameTailIn (← size) [name]
      if ← nextIsSymbol .lparen then return (← call n parts).toExpr else return .column parts :
        Rule Expr) (front ++ ls) = .ok (.call (name :: parts) args, rest) := by
    rw [bind_ok rfl, bind_ok hname, bind_ok hparen]
    rw [hls] at hcall
    exact hcall
  cases parts with
  | nil =>
    rw [hfront.of_nil, List.nil_append] at hrun ⊢
    rw [← hls] at hrun ⊢
    exact hrun
  | cons part parts =>
    obtain ⟨p, ts', rfl, -⟩ := hfront.of_cons
    exact hrun

end
/-! ## Parentheses, signs and casts -/

section

variable {e : Expr} {ts rest : List Lexeme}

theorem expressions_eq {first : Expr} {others : List Expr}
    (h : ∀ item ∈ first :: others, item.Grouped ∧ ReadsNested n item)
    (hts : Spells ts ([.symbol .comma].intercalate (Expr.tokensAll (first :: others))))
    (place : Nat) (hrest : Ends rest) :
    n.expressions (ts ++ ⟨.symbol .rparen, place⟩ :: rest) =
      .ok (first :: others, ⟨.symbol .rparen, place⟩ :: rest) := by
  have hitems := commaSeparated_eq (r := n.expression) (f := fun item ↦ item)
    (fun item hitem ts rest hts hrest hfollow ↦
      (h item hitem).2.expression_eq (h item hitem).1 hts hrest hfollow)
    hts (ne_lbracket_items (fun item hitem ↦ (h item hitem).1) hts) place hrest
  rw [List.map_id'] at hitems
  exact hitems

theorem fieldOf_eq (hrest : Ends rest) (e : Expr) : fieldOf e rest = .ok (e, rest) := by
  rcases rest with _ | ⟨⟨t, p⟩, rest⟩
  · rfl
  · have hperiod : t ≠ .symbol .period := hrest.ne_symbol (by decide) _ rfl
    unfold fieldOf
    split
    · next heq => simp only [List.cons.injEq, Lexeme.mk.injEq] at heq; exact absurd heq.1.1 hperiod
    · next heq => simp only [List.cons.injEq, Lexeme.mk.injEq] at heq; exact absurd heq.1.1 hperiod
    · rfl

theorem bareOperand_nested (h : ReadsNested n e) (he : e.Grouped)
    (hts : Spells ts (Expr.nested e).tokens) (hrest : Ends rest) :
    bareOperand n (ts ++ rest) = .ok ((.nested e, true), rest) := by
  have hplain := hts.ne_lbracket (.nested he)
  rw [Expr.tokens] at hts
  obtain ⟨opening, ts', rfl, hts'⟩ := Spells.of_cons hts
  obtain ⟨ts₁, ts₂, rfl, hts₁, hts₂⟩ := hts'.of_append
  obtain ⟨closing, ts₃, rfl, hnil⟩ := hts₂.of_cons
  rw [hnil.of_nil] at hplain ⊢
  have hend : Ends (⟨.symbol .rparen, closing⟩ :: rest) := .cons (by decide) hrest.plain
  have hitem : ∀ item ∈ [e], item.Grouped ∧ ReadsNested n item := by simpa using ⟨he, h⟩
  have hitems := expressions_eq hitem (by simpa [Expr.tokensAll] using hts₁) closing hrest
  have hrun : parenthesizedExpression n
      (⟨.symbol .lparen, opening⟩ :: (ts₁ ++ ⟨.symbol .rparen, closing⟩ :: rest)) =
      .ok (.nested e, rest) := by
    have hquery := (starts_tokens he hts₁ hend).queryAhead_eq
    show ((queryAhead >>= _) >>= _) (ts₁ ++ ⟨.symbol .rparen, closing⟩ :: rest) = _
    rw [bind_ok ((bind_ok hquery).trans ((bind_ok hitems).trans rfl)),
      bind_ok (symbol_eq .rparen closing rest)]
    exact fieldOf_eq hrest _
  have hls : ∀ l ∈ ts₁ ++ ⟨.symbol .rparen, closing⟩ :: rest, l.token ≠ .symbol .lbracket :=
    ne_lbracket_append (fun l hl ↦ hplain l (by simp [hl])) hend
  rw [List.cons_append, List.append_assoc]
  exact bareOperand_plain n opening (by simp) hls hrun

theorem bareOperand_sign {op : UnaryOp} (hop : op ≠ .not) (h : ReadsNested n e) (he : e.Grouped)
    (hfloor : 40 < e.floor) (hts : Spells ts (Expr.unary op e).tokens) (hrest : Ends rest)
    (hfollow : follow rest ≤ 40) :
    bareOperand n (ts ++ rest) = .ok ((.unary op e, true), rest) := by
  have hplain := hts.ne_lbracket (.sign hop he hfloor)
  obtain ⟨p, ts', rfl, hts'⟩ := Spells.of_cons hts
  have hexpr := h 40 ts' rest hts' hrest hfloor hfollow
  have hls : ∀ l ∈ ts' ++ rest, l.token ≠ .symbol .lbracket :=
    ne_lbracket_append (fun l hl ↦ hplain l (by simp [hl])) hrest
  cases op with
  | not => exact absurd rfl hop
  | minus => exact bareOperand_plain n p (by simp [Expr.unaryToken]) hls ((bind_ok hexpr).trans rfl)
  | plus => exact bareOperand_plain n p (by simp [Expr.unaryToken]) hls ((bind_ok hexpr).trans rfl)

theorem bareOperand_not (h : ReadsNested n e) (he : e.Grouped) (hfloor : 15 < e.floor)
    (hts : Spells ts (Expr.unary .not e).tokens) (hrest : Ends rest) (hfollow : follow rest ≤ 15) :
    bareOperand n (ts ++ rest) = .ok ((.unary .not e, true), rest) := by
  have hplain := hts.ne_lbracket (.not he hfloor)
  obtain ⟨p, ts', rfl, hts'⟩ := Spells.of_cons hts
  have hexpr := h 15 ts' rest hts' hrest hfloor hfollow
  have hstarts := starts_tokens he hts' hrest
  have hls : ∀ l ∈ ts' ++ rest, l.token ≠ .symbol .lbracket :=
    ne_lbracket_append (fun l hl ↦ hplain l (by simp [hl])) hrest
  have hrun : notExpression n (ts' ++ rest) = .ok (.unary .not e, rest) := by
    rw [notExpression, bind_ok (key?_eq_false (hstarts.ne_key (by decide)))]
    exact (bind_ok hexpr).trans rfl
  refine (bareOperand_word n _ p (by decide) hls).trans ?_
  exact wordExpression_of_keywordForm (by decide) ((bind_ok hrun).trans rfl)

theorem bareOperand_cast {type : DataType} (h : ReadsNested n e) (he : e.Grouped)
    (htype : Expr.ReadsBack type) (hts : Spells ts (Expr.cast .function e type).tokens)
    (hrest : Ends rest) :
    bareOperand n (ts ++ rest) = .ok ((.cast .function e type, true), rest) := by
  have hplain := hts.ne_lbracket (.cast he htype)
  rw [Expr.tokens] at hts
  obtain ⟨p, ts', rfl, hts'⟩ := Spells.of_cons hts
  obtain ⟨opening, ts'', rfl, hts''⟩ := Spells.of_cons hts'
  obtain ⟨ts₁, ts₂, rfl, hts₁, hts₂⟩ := Spells.of_append hts''
  obtain ⟨place, ts₃, rfl, hts₃⟩ := hts₂.of_cons
  obtain ⟨left, ts₄, rfl, hts₄⟩ := hts₃.of_cons
  obtain ⟨closing, ts₅, rfl, hnil⟩ := hts₄.of_cons
  rw [hnil.of_nil] at hplain ⊢
  have hend : Ends (⟨keyToken "AS" "AS", place⟩ :: ⟨.ofWord type.sql, left⟩ ::
      ⟨.symbol .rparen, closing⟩ :: rest) := by
    refine .cons (by decide) fun l hl ↦ ?_
    rcases List.mem_cons.1 hl with rfl | hl
    · exact hplain _ (by simp)
    · have hclosing : Ends (⟨.symbol .rparen, closing⟩ :: rest) := .cons (by decide) hrest.plain
      exact hclosing.plain l hl
  have hexpr := h.expression_eq he hts₁ hend rfl
  have htype' := htype n left (⟨.symbol .rparen, closing⟩ :: rest) rfl
  have hrun : castExpression n "CAST" (⟨.symbol .lparen, opening⟩ ::
      (ts₁ ++ ⟨keyToken "AS" "AS", place⟩ :: ⟨.ofWord type.sql, left⟩ ::
        ⟨.symbol .rparen, closing⟩ :: rest)) = .ok (.cast .function e type, rest) := by
    refine parenthesized_eq opening closing ?_
    rw [bind_ok hexpr]
    show (key "AS" >>= _) _ = _
    rw [bind_ok rfl]
    exact (bind_ok htype').trans rfl
  have hls : ∀ l ∈ (⟨.symbol .lparen, opening⟩ :: (ts₁ ++ ⟨keyToken "AS" "AS", place⟩ ::
      ⟨.ofWord type.sql, left⟩ :: ⟨.symbol .rparen, closing⟩ :: rest) : List Lexeme),
      l.token ≠ .symbol .lbracket := by
    intro l hl
    rcases List.mem_cons.1 hl with rfl | hl
    · simp
    · exact ne_lbracket_append (fun l hl ↦ hplain l (by simp [hl])) hend l hl
  have hword := bareOperand_word n (.plain "cast") p (show ∀ k ∈ some "CAST", _ by decide) hls
  simp only [List.cons_append, List.append_assoc]
  exact hword.trans (wordExpression_of_keywordForm (by decide) ((bind_ok hrun).trans rfl))

end

end Funnel.Sql.Grammar
