import Mathlib
import Funnel.Proofs.ColumnTokens

/-!
# Names Are Read as Columns

The tokens of a name are read as a column to their end (`expression_name`).  The first part is tried
as a type and as the keyword of a form before.  Behind it stands a period or nothing (`GoesOn`): so
no text follows a type, and no form goes on but those that are read whatever follows.
-/

namespace Funnel.Sql

open Grammar (valueKeys properKeywords)

theorem Ident.token_cases (i : Ident) :
    (i.quote ≠ some .single ∧ ∃ key, i.token = .word i key) ∨
      ∃ text, i = .quoted .single text ∧ i.token = .string .plain text := by
  unfold token
  split
  · next hquote => exact .inl ⟨by simp [hquote], _, rfl⟩
  · next hquote => exact .inr ⟨i.text, Ident.ext rfl hquote, rfl⟩
  · next q hne hquote =>
    refine .inl ⟨fun heq ↦ ?_, _, rfl⟩
    exact hne (Option.some.inj (hquote.symm.trans heq))

theorem Ident.Opens.exists_key {i : Ident} (h : i.Opens) :
    ∃ key, i.token = .word i key ∧ ∀ k ∈ key, k ∉ valueKeys ++ properKeywords := by
  obtain ⟨-, key, htoken⟩ | ⟨text, rfl, -⟩ := i.token_cases
  · refine ⟨key, htoken, fun k hk ↦ h.2 k ?_⟩
    rwa [htoken]
  · exact absurd rfl h.1

namespace Grammar

open Rule

/-! ## What stands behind the first part of a name -/

/-- Nothing stands here, or a period. -/
def GoesOn (ls : List Lexeme) : Prop :=
  ls = [] ∨ ∃ place ls', ls = ⟨.symbol .period, place⟩ :: ls'

section

variable {n : Nested} {ls : List Lexeme}

theorem GoesOn.of_tailTokens {parts : List Ident} (h : Spells ls (Ident.tailTokens parts)) :
    GoesOn ls := by
  cases parts with
  | nil => exact .inl h.of_nil
  | cons i parts =>
    obtain ⟨place, ls', rfl, -⟩ := h.of_cons
    exact .inr ⟨place, ls', rfl⟩

theorem GoesOn.ne_symbol (h : GoesOn ls) {s : Symbol} (hs : s ≠ .period) :
    ∀ l ∈ ls.head?, l.token ≠ .symbol s := by
  obtain rfl | ⟨place, ls', rfl⟩ := h
  · simp
  · simpa using hs.symm

/-- No expression begins here. -/
theorem GoesOn.exists_error (h : GoesOn ls) (inHierarchy : Bool) (depth level : Nat) :
    ∃ e, (nested inHierarchy depth).expr level ls = .error e := by
  obtain rfl | ⟨place, ls', rfl⟩ := h
  · cases depth with
    | zero => exact ⟨_, rfl⟩
    | succ depth => cases depth <;> exact ⟨_, rfl⟩
  · cases depth with
    | zero => exact ⟨_, rfl⟩
    | succ depth => cases depth <;> exact ⟨_, rfl⟩

/-! ## Types -/

/-- A keyword behind which a name goes on or ends is a type by itself, or none. -/
theorem keywordType_cases {k : Keyword} (hk : k ≠ "INTERVAL") (h : GoesOn ls) (n : Nested)
    (inner : Rule (DataType × Bool)) (start : Option Nat) (name : Ident) (place : Nat) :
    (∃ wording operands, keywordType n inner start k (⟨.word name (some k), place⟩ :: ls) =
        .ok ((.known wording operands, false), ls)) ∨
      (∃ e, keywordType n inner start k (⟨.word name (some k), place⟩ :: ls) = .error e ∧
        e ≠ .tooDeep) ∨ NamesNoType k := by
  by_cases hcustom : NamesNoType k
  · exact .inr (.inr hcustom)
  -- The rule of the keyword stands in the goal twice; its cases are made once, for a name of it.
  generalize hrule : keywordType n inner start k = r
  unfold keywordType at hrule
  cases hplain : plainTypes.lookup k with
  | some spelling =>
    rw [hplain] at hrule
    subst hrule
    exact .inl ⟨_, _, rfl⟩
  | none =>
    rw [hplain] at hrule
    by_cases hsized : sizedTypes.contains k = true
    · simp only [hsized, if_true] at hrule
      subst hrule
      obtain rfl | ⟨place', ls', rfl⟩ := h <;> exact .inl ⟨_, _, rfl⟩
    by_cases hinteger : integerTypes.contains k = true
    · simp only [hsized, hinteger, Bool.false_eq_true, if_false, if_true] at hrule
      subst hrule
      obtain rfl | ⟨place', ls', rfl⟩ := h <;> exact .inl ⟨_, _, rfl⟩
    by_cases hdecimal : decimalTypes.contains k = true
    · simp only [hsized, hinteger, hdecimal, Bool.false_eq_true, if_false, if_true] at hrule
      subst hrule
      obtain rfl | ⟨place', ls', rfl⟩ := h <;> exact .inl ⟨_, _, rfl⟩
    simp only [hsized, hinteger, hdecimal, Bool.false_eq_true, if_false] at hrule
    obtain rfl | ⟨place', ls', rfl⟩ := h <;> split at hrule <;> subst hrule <;> first
      | exact .inl ⟨_, _, rfl⟩
      | exact .inr (.inl ⟨_, rfl, by simp⟩)
      | exact absurd rfl hk
      | refine absurd (fun n inner start ↦ ?_) hcustom
        unfold keywordType
        simp only [hplain, hsized, hinteger, hdecimal, Bool.false_eq_true, if_false]

/-- No literal of a type begins with the first word of a name. -/
theorem attempt_typedLiteral_name {key : Option Keyword} (hkey : ∀ k ∈ key, k ≠ "INTERVAL")
    (h : GoesOn ls) (hplain : ∀ l ∈ ls, l.token ≠ .symbol .lbracket) (name : Ident) (place : Nat) :
    attempt (typedLiteral n) (⟨.word name key, place⟩ :: ls) =
      .ok (none, ⟨.word name key, place⟩ :: ls) := by
  obtain ⟨e, he, hne⟩ : ∃ e, typedLiteral n (⟨.word name key, place⟩ :: ls) = .error e ∧
      e ≠ .tooDeep := by
    cases key with
    | none => exact typedLiteral_eq_error n name place (by simp) hplain
    | some k =>
      have hin : ∀ d, dataTypeIn n (d + 1) (⟨.word name (some k), place⟩ :: ls) =
          (keywordType n (dataTypeIn n d) (some place) k >>= fun found ↦ do
            return (← arraySuffixIn (← size) found.1, found.2) : Rule (DataType × Bool))
            (⟨.word name (some k), place⟩ :: ls) := fun _ ↦ rfl
      have hrun : dataType n (⟨.word name (some k), place⟩ :: ls) =
          balanced (dataTypeIn n (ls.length + 1 + 1)) (⟨.word name (some k), place⟩ :: ls) := rfl
      obtain ⟨wording, operands, hknown⟩ | ⟨e, herror, hne⟩ | hcustom :=
        keywordType_cases (hkey k rfl) h n (dataTypeIn n (ls.length + 1)) (some place) name place
      · have hfound : dataTypeIn n (ls.length + 1 + 1) (⟨.word name (some k), place⟩ :: ls) =
            .ok ((.known wording operands, false), ls) := by
          rw [hin, bind_ok hknown, bind_ok rfl,
            bind_ok (arraySuffixIn_eq (h.ne_symbol (by decide)) _ _)]
          rfl
        have htype : dataType n (⟨.word name (some k), place⟩ :: ls) =
            .ok (.known wording operands, ls) := by
          rw [hrun, balanced, bind_ok hfound]
          rfl
        refine ⟨.expected .string ls.head?, ?_, by simp⟩
        rw [typedLiteral, bind_ok htype]
        obtain rfl | ⟨place', ls', rfl⟩ := h <;> rfl
      · refine ⟨e, ?_, hne⟩
        rw [typedLiteral, bind_error]
        rw [hrun, balanced, bind_error]
        rw [hin, bind_error herror]
      · exact typedLiteral_eq_error n name place (by rintro _ ⟨⟩; exact hcustom) hplain
  exact attempt_eq_none he hne

/-! ## Forms -/

/-- No keyword opens a form here unless it is a value or is never a name. -/
theorem keywordForm_name {k : Keyword} (hk : k ∉ valueKeys ++ properKeywords) (h : GoesOn ls)
    (hexpr : ∀ level, ∃ e, n.expr level ls = .error e) (hplain : n.inHierarchy = false)
    (start : Option Nat) (name : Ident) :
    keywordForm n start name k ls = .ok (none, ls) ∨
      ∃ e, keywordForm n start name k ls = .error e := by
  have hfound : ∀ {r : Rule Expr}, (∃ e, r ls = .error e) →
      ∃ e, (do return some (← r) : Rule (Option Expr)) ls = .error e := by
    rintro r ⟨e, he⟩
    exact ⟨e, bind_error he⟩
  have hparen : ∀ r : Rule Expr, ∃ e, parenthesized r ls = .error e := by
    intro r
    refine ⟨.expected (.symbol .lparen) ls.head?, ?_⟩
    rw [parenthesized, bind_error]
    rw [symbol, bind_ok (symbol?_eq_false (h.ne_symbol (by decide)))]
    rfl
  have hnot : ∀ {s}, s ≠ .period → ∀ r : Rule Expr,
      (do if ← nextIsSymbol s then return some (← r) else return none : Rule (Option Expr)) ls =
        .ok (none, ls) := by
    intro s hs r
    rw [bind_ok (nextIsSymbol_eq_false (h.ne_symbol hs))]
    rfl
  have hkey : ∀ {k}, key? k ls = .ok (false, ls) := by
    obtain rfl | ⟨place, ls', rfl⟩ := h <;> exact fun {k} ↦ rfl
  have hcase : ∃ e, caseExpression n ls = .error e := by
    obtain ⟨e, he⟩ := hexpr 0
    have hoperand : (do
        if ← key? "WHEN" then return none
        let e ← n.expression
        key "WHEN"
        return some e : Rule (Option Expr)) ls = .error e := by
      rw [bind_ok hkey]
      exact bind_error he
    exact ⟨e, bind_error hoperand⟩
  have hnegation : ∃ e, notExpression n ls = .error e := by
    obtain ⟨e, he⟩ := hexpr 15
    refine ⟨e, ?_⟩
    rw [notExpression, bind_ok hkey]
    exact bind_error he
  have hmatch : ∃ e, matchExpression ls = .error e := by
    refine ⟨.expected .columnList ls.head?, ?_⟩
    rw [matchExpression, bind_error]
    rw [columnList, bind_ok (symbol?_eq_false (h.ne_symbol (by decide)))]
    rfl
  generalize hform : keywordForm n start name k = r
  unfold keywordForm at hform
  split at hform <;> subst hform
  any_goals
    refine absurd ?_ hk
    decide
  · exact .inr (hfound hcase)
  · exact .inr (hfound (hparen _))
  · exact .inr (hfound (hparen _))
  · exact .inr (hfound (hparen _))
  · exact .inr (hfound (hparen _))
  · exact .inr (hfound (hparen _))
  · exact .inr (hfound (hparen _))
  · exact .inr (hfound (hparen _))
  · exact .inr (hfound (hparen _))
  · exact .inl (hnot (by decide) _)
  · exact .inr (hfound (hparen _))
  · exact .inr (hfound (hparen _))
  · exact .inl ((bind_ok (symbol?_eq_false (h.ne_symbol (by decide)))).trans
      (hnot (by decide) _))
  · exact .inr (hfound hnegation)
  · exact .inr (hfound hmatch)
  · rw [hplain]
    exact .inl rfl
  · exact .inl (hnot (by decide) _)
  · exact .inl rfl

/-! ## Names -/

theorem nameTailIn_tailTokens {parts : List Ident} (hls : Spells ls (Ident.tailTokens parts))
    {fuel : Nat} (hfuel : parts.length ≤ fuel) (front : List Ident) :
    nameTailIn fuel front ls = .ok (front ++ parts, []) := by
  induction parts generalizing ls fuel front with
  | nil =>
    rw [hls.of_nil, List.append_nil]
    cases fuel <;> rfl
  | cons i parts ih =>
    obtain ⟨place, ls', rfl, hname⟩ := hls.of_cons
    obtain ⟨place', ls'', rfl, hparts⟩ := Spells.of_cons hname
    obtain _ | fuel := fuel
    · simp at hfuel
    have htail := ih hparts (Nat.le_of_succ_le_succ hfuel) (front ++ [i])
    rw [List.append_assoc] at htail
    rw [nameTailIn, bind_ok (symbol?_eq_true .period place _)]
    obtain ⟨-, key, htoken⟩ | ⟨text, rfl, htoken⟩ := i.token_cases
    · rw [htoken]
      exact htail
    · exact htail

theorem nameExpression_tailTokens {parts : List Ident}
    (hls : Spells ls (Ident.tailTokens parts)) (name : Ident) :
    nameExpression n name ls = .ok (.column (name :: parts), []) := by
  cases parts with
  | nil =>
    rw [hls.of_nil]
    rfl
  | cons i parts =>
    have hlength : (i :: parts).length ≤ ls.length := by
      have hcount : (ls.map Lexeme.token).length = (Ident.tailTokens (i :: parts)).length :=
        congrArg List.length hls
      simp only [List.length_map, Ident.tailTokens, List.length_flatMap] at hcount
      simp at hcount ⊢
      omega
    have htail := nameTailIn_tailTokens hls hlength [name]
    obtain ⟨place, ls', rfl, -⟩ := hls.of_cons
    rw [nameExpression, bind_ok rfl]
    show (nameTailIn _ _ >>= _) _ = _
    rw [bind_ok htail]
    rfl

theorem wordExpression_name {i : Ident} {key : Option Keyword} {parts : List Ident}
    (hkey : ∀ k ∈ key, k ∉ valueKeys ++ properKeywords)
    (hls : Spells ls (Ident.tailTokens parts)) (hexpr : ∀ level, ∃ e, n.expr level ls = .error e)
    (hplain : n.inHierarchy = false) (start : Option Nat) :
    ∃ open?, wordExpression n start i key ls = .ok ((.column (i :: parts), open?), []) := by
  have hname := nameExpression_tailTokens (n := n) hls i
  have hword : ∀ b : Bool, (do return (← nameExpression n i, b) : Rule (Expr × Bool)) ls =
      .ok ((.column (i :: parts), b), []) := fun b ↦ bind_ok hname
  cases key with
  | none => exact ⟨true, hword true⟩
  | some k =>
    have hk := hkey k rfl
    have hproper : properKeywords.contains k = false := by
      simpa using fun hmem ↦ hk (List.mem_append_right _ hmem)
    unfold wordExpression
    simp only [hproper]
    obtain hform | ⟨e, hform⟩ :=
      keywordForm_name hk (.of_tailTokens hls) hexpr hplain start i
    · exact ⟨true, orTry_eq_ok ((bind_ok hform).trans (hword true))⟩
    · refine ⟨false, ?_⟩
      rw [if_neg (by simp), orTry, bind_error hform]
      simp only [hword false]

theorem bareOperand_name {i : Ident} (hi : i.Opens) {parts : List Ident}
    (hls : Spells ls (i.token :: Ident.tailTokens parts))
    (hexpr : ∀ level ls', GoesOn ls' → ∃ e, n.expr level ls' = .error e)
    (hplain : n.inHierarchy = false) :
    ∃ open?, bareOperand n ls = .ok ((.column (i :: parts), open?), []) := by
  obtain ⟨key, htoken, hkey⟩ := hi.exists_key
  rw [htoken] at hls
  obtain ⟨place, ls', rfl, htail⟩ := hls.of_cons
  have hgoes : GoesOn ls' := .of_tailTokens htail
  have hinterval : ∀ k ∈ key, k ≠ "INTERVAL" := by
    rintro k hk rfl
    exact hkey _ hk (by decide)
  have hlbracket : ∀ l ∈ ls', l.token ≠ .symbol .lbracket := by
    intro l hl heq
    have hmem : Token.symbol .lbracket ∈ Ident.tailTokens parts :=
      htail ▸ heq ▸ List.mem_map_of_mem hl
    simp [Ident.tailTokens, (Ident.token_ne_symbol _ _).symm] at hmem
  obtain ⟨open?, hword⟩ := wordExpression_name hkey htail (fun level ↦ hexpr level ls' hgoes)
    hplain (some place)
  refine ⟨open?, ?_⟩
  rw [bareOperand, bind_ok (attempt_typedLiteral_name hinterval hgoes hlbracket i place)]
  exact hword

end

/-! ## Columns -/

theorem operand_name {i : Ident} (hi : i.Opens) {parts : List Ident} {ls : List Lexeme}
    (hls : Spells ls (i.token :: Ident.tailTokens parts)) (depth : Nat) :
    (nested false (depth + 1)).operand ls = .ok (.column (i :: parts), []) := by
  change (bareOperand (nestedIn false (fun level ts ↦ expressionAt (nested false depth) level ts)
    (fun ts ↦ expressionAt (nested true depth) 0 ts) (fun ts ↦ query (nested false depth) ts)
    ls.length) >>= _) ls = _
  generalize hn : nestedIn false (fun level ts ↦ expressionAt (nested false depth) level ts)
    (fun ts ↦ expressionAt (nested true depth) 0 ts)
    (fun ts ↦ query (nested false depth) ts) ls.length = n
  have hexpr : n.expr = (nested false (depth + 1)).expr := by
    rw [← hn]
    cases ls.length <;> rfl
  have hplain : n.inHierarchy = false := by
    rw [← hn]
    cases ls.length <;> rfl
  obtain ⟨open?, hbare⟩ := bareOperand_name (n := n) hi hls
    (fun level ls' h ↦ hexpr ▸ h.exists_error false (depth + 1) level) hplain
  rw [bind_ok hbare]
  cases open? <;> rfl

/-- A name is read as a column, whatever keywords its parts spell. -/
theorem expression_name {i : Ident} (hi : i.Opens) {parts : List Ident} {ls : List Lexeme}
    (hls : Spells ls (i.token :: Ident.tailTokens parts)) :
    expression ls = .ok (.column (i :: parts), []) := by
  have hrun : expression ls = expressionAt (nested false (48 + 1)) 0 ls := rfl
  rw [hrun, expressionAt, bind_ok rfl, bind_ok (operand_name hi hls 48)]
  cases ls.length <;> rfl

end Grammar

end Funnel.Sql
