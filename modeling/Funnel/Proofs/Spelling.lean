import Mathlib
import Funnel.Proofs.Reading

/-!
# The Text of a Filter

The text of a filter has the tokens of its reading (`spelt_render`), so it is read as this
expression (`parse_render`).  Behind a filter there is the end of the text, a space, a
parenthesis or a comma, none of which goes on with a word, a number or a string.
-/

namespace Funnel

open Sql (UnaryOp BinaryOp LogicalOp Expr Numeral DataType Ident Infix Literal Token Keyword)
open Sql (keyToken)
open Sql.Lexer

/-! ## What stands behind a filter -/

/-- The text ends, or goes on with a character that a filter writes behind another one. -/
def Breaks (rest : List Char) : Prop := ∀ c ∈ rest.head?, c ∈ [' ', ')', ',']

theorem Breaks.cons {c : Char} {rest : List Char} (hc : c ∈ [' ', ')', ',']) :
    Breaks (c :: rest) := by
  intro d hd
  obtain rfl : c = d := by simpa using hd
  exact hc

theorem Breaks.endsWord {rest : List Char} (h : Breaks rest) : EndsWord rest := by
  intro c hc
  have hmem := h c hc
  constructor
  · fin_cases hmem <;> rfl
  · fin_cases hmem <;> decide

theorem Breaks.endsNumber {rest : List Char} (h : Breaks rest) :
    ∀ c ∈ rest.head?, Numeral.continues c = false ∧ c ≠ 'L' ∧ c ≠ 'x' := by
  intro c hc
  have hmem := h c hc
  fin_cases hmem <;> decide

theorem Breaks.endsString {rest : List Char} (h : Breaks rest) : rest.head? ≠ some '\x27' := by
  intro heq
  exact absurd (h _ heq) (by decide)

/-! ## Words between filters -/

/-- The keywords of filters as they are written. -/
def writtenKeys : List (String × Keyword) :=
  [("NOT", "NOT"), ("AND", "AND"), ("OR", "OR"), ("IS", "IS"), ("NULL", "NULL"), ("IN", "IN"),
    ("BETWEEN", "BETWEEN"), ("LIKE", "LIKE"), ("ILIKE", "ILIKE"), ("true", "TRUE"),
    ("false", "FALSE"), ("cast", "CAST"), ("AS", "AS")]

theorem isWord_written {written : String} {k : Keyword} (h : (written, k) ∈ writtenKeys) :
    IsWord written.toList ∧ Keyword.ofWord? written = some k := by
  have hall : ∀ p ∈ writtenKeys, IsWord p.1.toList ∧ Keyword.ofWord? p.1 = some p.2 := by decide
  exact hall _ h

theorem lexes_key {written : String} {k : Keyword} (h : (written, k) ∈ writtenKeys)
    {rest : List Char} (hr : EndsWord rest) :
    Lexes written.toList [keyToken written k] rest := by
  obtain ⟨hw, hk⟩ := isWord_written h
  have hlexes := lexes_word hw hr
  rwa [Token.ofWord, hk] at hlexes

theorem endsWord_space (rest : List Char) : EndsWord (' ' :: rest) :=
  (Breaks.cons (by decide)).endsWord

theorem endsWord_lparen (rest : List Char) : EndsWord ('(' :: rest) := by
  intro c hc
  obtain rfl : '(' = c := by simpa using hc
  exact ⟨rfl, by decide⟩

/-- A keyword with a space behind it. -/
theorem lexes_key_space (written : String) (k : Keyword) (h : (written, k) ∈ writtenKeys)
    (rest : List Char) : Lexes (written ++ " ").toList [keyToken written k] rest := by
  have hspace : Lexes " ".toList [] rest := lexes_space rest
  rw [String.toList_append]
  exact (lexes_key h (endsWord_space rest)).append hspace

theorem lexes_not (rest : List Char) : Lexes "NOT ".toList [keyToken "NOT" "NOT"] rest :=
  lexes_key_space "NOT" "NOT" (by decide) rest

theorem lexes_negation (negated : Bool) (rest : List Char) :
    Lexes (Sql.negation negated).toList (Expr.notTokens negated) rest := by
  cases negated with
  | false => exact .nil rest
  | true => exact lexes_not rest

/-- The spelling of an operator, which a space ends. -/
theorem exists_spelling (op : BinaryOp) : ∃ c cs, op.text.toList = c :: cs ∧
    ∀ rest, scan c (cs ++ ' ' :: rest) = .ok (some (.symbol op.symbol), ' ' :: rest) := by
  cases op <;> exact ⟨_, _, rfl, fun _ ↦ rfl⟩

def Sql.Infix.text : Infix → String
  | .binary op => op.text
  | .logical op => op.text

theorem lexes_operator (op : Infix) (rest : List Char) :
    Lexes (" " ++ op.text ++ " ").toList [op.token] rest := by
  rw [String.append_assoc, String.toList_append]
  refine (lexes_space _).append ?_
  cases op with
  | binary op =>
    obtain ⟨c, cs, hcs, hscan⟩ := exists_spelling op
    have hsign : Lexes op.text.toList [.symbol op.symbol] (' ' :: rest) := by
      rw [hcs]
      exact .of_scan (some (.symbol op.symbol)) (hscan rest)
    rw [String.toList_append]
    exact hsign.append (lexes_space rest)
  | logical op =>
    cases op with
    | and => exact lexes_key_space "AND" "AND" (by decide) rest
    | or => exact lexes_key_space "OR" "OR" (by decide) rest

/-- The word of a test with the spaces around it. -/
theorem lexes_testWord (negated : Bool) {word : String} {k : Keyword}
    (h : (word, k) ∈ writtenKeys) (rest : List Char) :
    Lexes (testWord negated word).toList (Expr.notTokens negated ++ [keyToken word k]) rest := by
  rw [testWord, String.append_assoc, String.append_assoc, String.toList_append,
    String.toList_append]
  exact (lexes_space _).append ((lexes_negation negated _).append (lexes_key_space word k h rest))

theorem breaks_space (tail : String) (rest : List Char) :
    Breaks ((" " ++ tail).toList ++ rest) := by
  rw [String.toList_append]
  exact .cons (by decide)

theorem breaks_testWord (negated : Bool) (word tail : String) (rest : List Char) :
    Breaks ((testWord negated word ++ tail).toList ++ rest) := by
  rw [testWord, String.append_assoc, String.append_assoc, String.append_assoc]
  exact breaks_space _ rest

/-! ## Names and values -/

theorem lexes_plainWord {part : List Char} (hw : IsWord part)
    (hk : Keyword.ofWord? (String.ofList part) = none) {rest : List Char} (hr : EndsWord rest) :
    Lexes part [.word (.plain (String.ofList part)) none] rest := by
  have h := lexes_word (w := String.ofList part) (by simpa using hw) hr
  rwa [String.toList_ofList, Token.ofWord, hk] at h

theorem intercalate_head {part : List Char} (hw : IsWord part) (parts : List (List Char)) :
    ∃ c cs, ['.'].intercalate (part :: parts) = c :: cs ∧ isWordStart c = true := by
  obtain ⟨⟨c, ds, rfl, hc, -⟩, -⟩ := hw
  cases parts with
  | nil => exact ⟨c, ds, by rw [List.intercalate_singleton], hc⟩
  | cons part' parts => exact ⟨c, _, by rw [List.intercalate_cons_cons]; rfl, hc⟩

/-- A plain name is its parts with periods between them. -/
theorem exists_parts {name : String} (h : IsPlainName name) : ∃ part parts,
    name.toList = ['.'].intercalate (part :: parts) ∧
      nameParts name = (part :: parts).map (fun p ↦ .plain (String.ofList p)) ∧
      ∀ p ∈ part :: parts, IsWord p ∧ Keyword.ofWord? (String.ofList p) = none := by
  have hsplit : ['.'].intercalate (name.toList.splitOn '.') = name.toList :=
    List.intercalate_splitOn '.'
  obtain ⟨part, parts, heq⟩ := List.exists_cons_of_ne_nil (List.splitOn_ne_nil '.' name.toList)
  rw [IsPlainName, heq] at h
  rw [nameParts, heq]
  rw [heq] at hsplit
  exact ⟨part, parts, hsplit.symm, rfl, h⟩

theorem name_head {name : String} (h : IsPlainName name) :
    ∃ c cs, name.toList = c :: cs ∧ isWordStart c = true := by
  obtain ⟨part, parts, hname, -, hwords⟩ := exists_parts h
  rw [hname]
  exact intercalate_head (hwords part List.mem_cons_self).1 parts

theorem lexes_parts {part : List Char} {parts : List (List Char)}
    (h : ∀ p ∈ part :: parts, IsWord p ∧ Keyword.ofWord? (String.ofList p) = none)
    {rest : List Char} (hr : EndsWord rest) : Lexes (['.'].intercalate (part :: parts))
      (Expr.nameTokens ((part :: parts).map fun p ↦ .plain (String.ofList p))) rest := by
  induction parts generalizing part with
  | nil =>
    obtain ⟨hw, hk⟩ := h part List.mem_cons_self
    rw [List.intercalate_singleton]
    exact lexes_plainWord hw hk hr
  | cons part' parts ih =>
    obtain ⟨hw, hk⟩ := h part List.mem_cons_self
    have htail := ih fun p hp ↦ h p (List.mem_cons_of_mem _ hp)
    obtain ⟨c, cs, hcs, hc⟩ := intercalate_head (h part' (by simp)).1 parts
    rw [hcs] at htail
    rw [List.intercalate_cons_cons, hcs]
    have hends : EndsWord ('.' :: (c :: cs ++ rest)) := by
      intro d hd
      obtain rfl : '.' = d := by simpa using hd
      exact ⟨rfl, by decide⟩
    have hdigit : ∀ d ∈ (c :: cs ++ rest).head?, d.isDigit = false := by
      intro d hd
      obtain rfl : c = d := by simpa using hd
      exact not_isDigit_of_isWordStart hc
    exact ((lexes_plainWord hw hk hends).append (lexes_period hdigit)).append htail

/-- A dotted name is read as its parts. -/
theorem lexes_name {name : String} (h : IsPlainName name) {rest : List Char} (hr : EndsWord rest) :
    Lexes name.toList (Expr.nameTokens (nameParts name)) rest := by
  obtain ⟨part, parts, hname, hparts, hwords⟩ := exists_parts h
  rw [hname, hparts]
  exact lexes_parts hwords hr

theorem ne_of_isWordStart {c d : Char} (hc : isWordStart c = true) (hd : isWordStart d = false) :
    c ≠ d := by
  rintro rfl
  simp [hd] at hc

/-! ## Texts that begin with a sign -/

theorem startsWithSign_eq_false {text : String} {c : Char} {cs : List Char}
    (h : text.toList = c :: cs) (hc : c ≠ '-' ∧ c ≠ '+') : startsWithSign text = false := by
  unfold startsWithSign
  rw [h]
  split <;> simp_all

theorem startsWithSign_append {text : String} (h : text.toList ≠ []) (rest : String) :
    startsWithSign (text ++ rest) = startsWithSign text := by
  obtain ⟨c, cs, hcs⟩ := List.exists_cons_of_ne_nil h
  unfold startsWithSign
  rw [String.toList_append, hcs, List.cons_append]
  split <;> split <;> simp_all

theorem startsWithSign_paren (text : String) : startsWithSign ("(" ++ text ++ ")") = false := by
  rw [String.append_assoc]
  exact startsWithSign_append (by decide) _

theorem startsWithSign_name {name : String} (h : IsPlainName name) :
    startsWithSign name = false := by
  obtain ⟨c, cs, hcs, hc⟩ := name_head h
  exact startsWithSign_eq_false hcs ⟨ne_of_isWordStart hc rfl, ne_of_isWordStart hc rfl⟩

/-! ## Texts of expressions -/

/-- A text with the tokens of an expression, as a filter writes it. -/
structure Spelt (text : String) (e : Expr) : Prop where
  lexes : ∀ rest, Breaks rest → Lexes text.toList e.tokens rest
  /-- The text opens no arrow behind a minus sign. -/
  head : ∃ c cs, text.toList = c :: cs ∧ c ≠ '>'

namespace Spelt

variable {text : String} {e : Expr}

theorem nested (h : Spelt text e) : Spelt ("(" ++ text ++ ")") (.nested e) where
  lexes rest hrest := by
    rw [String.toList_append, String.toList_append, Expr.tokens]
    refine ((lexes_lparen _).append (h.lexes _ (.cons (by decide)))).append ?_
    exact lexes_rparen rest
  head := ⟨'(', _, by rw [String.toList_append, String.toList_append]; rfl, by decide⟩

theorem guarded (h : Spelt text e) (least strength : Nat) :
    Spelt (guarded least strength text) (enclosed least strength e) := by
  unfold Funnel.guarded enclosed
  split
  · exact h.nested
  · exact h

/-- What a filter writes behind an operand. -/
theorem append (h : Spelt text e) {tail : String} {ts : List Token} {whole : Expr}
    (hwhole : whole.tokens = e.tokens ++ ts) (hbreaks : ∀ rest, Breaks (tail.toList ++ rest))
    (htail : ∀ rest, Breaks rest → Lexes tail.toList ts rest) : Spelt (text ++ tail) whole where
  lexes rest hrest := by
    rw [String.toList_append, hwhole]
    exact (h.lexes _ (hbreaks rest)).append (htail rest hrest)
  head := by
    obtain ⟨c, cs, hcs, hc⟩ := h.head
    exact ⟨c, cs ++ tail.toList, by rw [String.toList_append, hcs]; rfl, hc⟩

theorem of_name {name : String} (h : IsPlainName name) : Spelt name (.column (nameParts name)) where
  lexes rest hrest := by
    rw [Expr.tokens]
    exact lexes_name h hrest.endsWord
  head := by
    obtain ⟨c, cs, hcs, hc⟩ := name_head h
    exact ⟨c, cs, hcs, ne_of_isWordStart hc rfl⟩

theorem number (n : Numeral) : Spelt n.text (.literal (.number n false)) where
  lexes rest hrest := lexes_numeral n hrest.endsNumber
  head := by
    obtain ⟨c, cs, hcs, hc⟩ := numeral_head n.spelled
    refine ⟨c, cs, hcs, ?_⟩
    rintro rfl
    exact absurd hc (by decide)

theorem toList_string_sql (s : String) : (Value.string s).sql.toList =
    '\x27' :: (Text.Quoted.encode '\x27' s.toList ++ ['\x27']) := by
  rw [← Value.toList_string_append, List.append_nil]

theorem string (s : String) : Spelt (Value.string s).sql (.literal (.string .plain s)) where
  lexes rest hrest := by
    rw [toList_string_sql]
    exact lexes_string s hrest.endsString
  head := ⟨'\x27', _, toList_string_sql s, by decide⟩

/-- A literal that is a keyword. -/
theorem key {written : String} {k : Keyword} (h : (written, k) ∈ writtenKeys)
    (he : e.tokens = [keyToken written k]) : Spelt written e where
  lexes rest hrest := by
    rw [he]
    exact lexes_key h hrest.endsWord
  head := by
    obtain ⟨⟨⟨c, cs, hcs, hc, -⟩, -⟩, -⟩ := isWord_written h
    exact ⟨c, cs, hcs, ne_of_isWordStart hc rfl⟩

theorem boolean (b : Bool) : Spelt (Value.boolean b).sql (.literal (.boolean b)) := by
  cases b with
  | false => exact .key (k := "FALSE") (by decide) rfl
  | true => exact .key (k := "TRUE") (by decide) rfl

theorem null : Spelt Value.null.sql (.literal .null) := .key (k := "NULL") (by decide) rfl

/-! ## Signs -/

/-- A minus sign that opens no comment and no arrow. -/
theorem scan_minus {c : Char} (hc : c ≠ '-' ∧ c ≠ '>') (cs : List Char) :
    scan '-' (c :: cs) = .ok (some (.symbol .minus), c :: cs) := by
  have hread : Sql.Symbol.read ('-' :: c :: cs) = some (.minus, c :: cs) := by
    simp [Sql.Symbol.read, Sql.Symbol.spellings, hc.2.symm]
  have hscan : scan '-' (c :: cs) = scanPlain '-' (c :: cs) := by
    unfold scan
    split <;> simp_all
  rw [hscan, scanPlain, hread]
  rfl

theorem scan_plus (cs : List Char) : scan '+' cs = .ok (some (.symbol .plus), cs) := rfl

theorem sign {op : UnaryOp} (hop : op ≠ .not) (h : Spelt text e)
    (hsign : startsWithSign text = false) : Spelt (op.text ++ text) (.unary op e) := by
  obtain ⟨c, cs, hcs, harrow⟩ := h.head
  have hminus : c ≠ '-' := by
    rintro rfl
    simp [startsWithSign, hcs] at hsign
  cases op with
  | not => exact absurd rfl hop
  | minus =>
    refine ⟨fun rest hrest ↦ ?_, ⟨'-', _, by rw [String.toList_append]; rfl, by decide⟩⟩
    rw [String.toList_append, Expr.tokens]
    have hminus : Lexes "-".toList [.symbol .minus] (text.toList ++ rest) := by
      rw [hcs]
      exact .of_scan (some (.symbol .minus)) (scan_minus ⟨hminus, harrow⟩ (cs ++ rest))
    exact hminus.append (h.lexes rest hrest)
  | plus =>
    refine ⟨fun rest hrest ↦ ?_, ⟨'+', _, by rw [String.toList_append]; rfl, by decide⟩⟩
    rw [String.toList_append, Expr.tokens]
    have hplus : Lexes "+".toList [.symbol .plus] (text.toList ++ rest) :=
      .of_scan (some (.symbol .plus)) (scan_plus _)
    exact hplus.append (h.lexes rest hrest)

theorem signed {op : UnaryOp} (hop : op ≠ .not) (h : Spelt text e) :
    Spelt (signedText op text) (.unary op (if startsWithSign text then .nested e else e)) := by
  unfold signedText
  by_cases hsign : startsWithSign text = true
  · have htext : op.text ++ "(" ++ text ++ ")" = op.text ++ ("(" ++ text ++ ")") := by
      simp only [String.append_assoc]
    rw [if_pos ⟨hop, hsign⟩, if_pos hsign, htext]
    exact h.nested.sign hop (startsWithSign_paren text)
  · rw [if_neg (fun h ↦ hsign h.2), if_neg hsign]
    exact h.sign hop (by simpa using hsign)

theorem not (h : Spelt text e) : Spelt (UnaryOp.not.text ++ text) (.unary .not e) where
  lexes rest hrest := by
    rw [String.toList_append, Expr.tokens]
    exact (lexes_not _).append (h.lexes rest hrest)
  head := ⟨'N', _, by rw [String.toList_append]; rfl, by decide⟩

/-! ## Operators and tests -/

variable {text' : String} {e' : Expr}

theorem joined (h : Spelt text e) (h' : Spelt text' e') (op : Infix) {whole : Expr}
    (hwhole : whole.tokens = e.tokens ++ op.token :: e'.tokens) :
    Spelt (text ++ " " ++ op.text ++ " " ++ text') whole := by
  have htext : text ++ " " ++ op.text ++ " " ++ text' =
      text ++ (" " ++ (op.text ++ " " ++ text')) := by
    simp only [String.append_assoc]
  rw [htext]
  refine h.append hwhole (breaks_space _) fun rest hrest ↦ ?_
  have hop := (lexes_operator op (text'.toList ++ rest)).append (h'.lexes rest hrest)
  rw [← String.toList_append, String.append_assoc, String.append_assoc] at hop
  rw [String.append_assoc]
  exact hop

theorem isNull (h : Spelt text e) (negated : Bool) :
    Spelt (text ++ " IS " ++ Sql.negation negated ++ "NULL") (.isNull e negated) := by
  have his : " IS " = " " ++ ("IS" ++ " ") := rfl
  rw [his, String.append_assoc, String.append_assoc, String.append_assoc]
  refine h.append (by rw [Expr.tokens, List.append_assoc]) (breaks_space _) fun rest hrest ↦ ?_
  have hnull : Lexes "NULL".toList [keyToken "NULL" "NULL"] rest :=
    lexes_key (by decide) hrest.endsWord
  have hlast := (lexes_negation negated _).append hnull
  rw [← String.toList_append] at hlast
  rw [String.toList_append, String.toList_append]
  exact (lexes_space _).append ((lexes_key_space "IS" "IS" (by decide) _).append hlast)

/-- A test with its word and what stands behind the word. -/
theorem test (h : Spelt text e) (negated : Bool) {word : String} {k : Keyword}
    (hk : (word, k) ∈ writtenKeys) {tail : String} {ts : List Token} {whole : Expr}
    (hwhole : whole.tokens = e.tokens ++ ((Expr.notTokens negated ++ [keyToken word k]) ++ ts))
    (htail : ∀ rest, Breaks rest → Lexes tail.toList ts rest) :
    Spelt (text ++ testWord negated word ++ tail) whole := by
  rw [String.append_assoc]
  refine h.append hwhole (breaks_testWord negated word tail) fun rest hrest ↦ ?_
  rw [String.toList_append]
  exact (lexes_testWord negated hk _).append (htail rest hrest)

theorem like (h : Spelt text e) (h' : Spelt text' e') (negated ignoreCase : Bool) :
    Spelt (text ++ testWord negated (Sql.likeWord ignoreCase) ++ text')
      (.like e e' negated ignoreCase) := by
  cases ignoreCase with
  | false =>
    exact h.test negated (k := "LIKE") (by decide) (by simp [Expr.tokens, Expr.likeToken]; rfl)
      h'.lexes
  | true =>
    exact h.test negated (k := "ILIKE") (by decide) (by simp [Expr.tokens, Expr.likeToken]; rfl)
      h'.lexes

theorem between (h : Spelt text e) {low high : String} {l r : Expr} (hlow : Spelt low l)
    (hhigh : Spelt high r) (negated : Bool) :
    Spelt (text ++ testWord negated "BETWEEN" ++ low ++ " AND " ++ high)
      (.between e l r negated) := by
  have hand : " AND " = " " ++ Infix.text (.logical .and) ++ " " := rfl
  have hbounds : Spelt (low ++ " " ++ Infix.text (.logical .and) ++ " " ++ high)
      (.logical .and l r) := hlow.joined hhigh (.logical .and) (by rw [Expr.tokens])
  have htext : text ++ testWord negated "BETWEEN" ++ low ++ " AND " ++ high =
      text ++ testWord negated "BETWEEN" ++
        (low ++ " " ++ Infix.text (.logical .and) ++ " " ++ high) := by
    rw [hand]
    simp only [String.append_assoc]
  rw [htext]
  refine h.test negated (k := "BETWEEN") (by decide) ?_ hbounds.lexes
  simp [Expr.tokens, Infix.token]

/-! ## Lists -/

theorem lexes_comma_space (rest : List Char) : Lexes ", ".toList [.symbol .comma] rest := by
  have hspace : Lexes " ".toList [] rest := lexes_space rest
  exact (lexes_comma _).append hspace

/-- Texts with commas between them. -/
theorem lexes_commas {texts : List String} {es : List Expr} (h : List.Forall₂ Spelt texts es)
    {rest : List Char} (hrest : Breaks rest) :
    Lexes (", ".intercalate texts).toList ([.symbol .comma].intercalate (Expr.tokensAll es))
      rest := by
  induction h with
  | nil => exact .nil rest
  | cons hhead htail ih =>
    rw [Expr.tokensAll]
    cases htail with
    | nil =>
      rw [Expr.tokensAll, List.intercalate_singleton, String.intercalate_singleton]
      exact hhead.lexes rest hrest
    | cons hnext hlast =>
      rw [Expr.tokensAll] at ih ⊢
      rw [List.intercalate_cons_cons, String.intercalate_cons_cons, String.toList_append,
        String.toList_append]
      have hcomma : ∀ cs, Breaks (", ".toList ++ cs) := fun cs ↦ .cons (by decide)
      exact ((hhead.lexes _ (hcomma _)).append (lexes_comma_space _)).append ih

/-- Texts in parentheses. -/
theorem lexes_arguments {texts : List String} {es : List Expr} (h : List.Forall₂ Spelt texts es)
    (rest : List Char) :
    Lexes ("(" ++ ", ".intercalate texts ++ ")").toList
      (.symbol .lparen :: [.symbol .comma].intercalate (Expr.tokensAll es) ++ [.symbol .rparen])
      rest := by
  rw [String.toList_append, String.toList_append]
  refine ((lexes_lparen _).append (lexes_commas h ?_)).append (lexes_rparen rest)
  exact .cons (by decide)

theorem inList (h : Spelt text e) {texts : List String} {first : Expr} {others : List Expr}
    (hitems : List.Forall₂ Spelt texts (first :: others)) (negated : Bool) :
    Spelt (text ++ testWord negated "IN" ++ "(" ++ ", ".intercalate texts ++ ")")
      (.inList e first others negated) := by
  have htext : text ++ testWord negated "IN" ++ "(" ++ ", ".intercalate texts ++ ")" =
      text ++ testWord negated "IN" ++ ("(" ++ ", ".intercalate texts ++ ")") := by
    simp only [String.append_assoc]
  rw [htext]
  refine h.test negated (k := "IN") (by decide) ?_ fun rest _ ↦ lexes_arguments hitems rest
  simp [Expr.tokens, Expr.tokensAll]

theorem call {name : String} (h : IsPlainName name) {texts : List String} {args : List Expr}
    (hargs : List.Forall₂ Spelt texts args) :
    Spelt (name ++ "(" ++ ", ".intercalate texts ++ ")") (.call (nameParts name) args) := by
  have htext : name ++ "(" ++ ", ".intercalate texts ++ ")" =
      name ++ ("(" ++ ", ".intercalate texts ++ ")") := by
    simp only [String.append_assoc]
  obtain ⟨c, cs, hcs, hc⟩ := (of_name h).head
  rw [htext]
  refine ⟨fun rest hrest ↦ ?_, ⟨c, _, by rw [String.toList_append, hcs]; rfl, hc⟩⟩
  have hparen : EndsWord (("(" ++ ", ".intercalate texts ++ ")").toList ++ rest) := by
    rw [String.append_assoc, String.toList_append]
    exact endsWord_lparen _
  rw [String.toList_append, Expr.tokens, List.append_assoc]
  exact (lexes_name h hparen).append (lexes_arguments hargs rest)

theorem cast (h : Spelt text e) {w : String} (hw : IsTypeWord w) :
    Spelt ("cast(" ++ text ++ " AS " ++ w ++ ")") (.cast .function e (wordType w)) where
  lexes rest hrest := by
    have hparen : Lexes "(".toList [.symbol .lparen] (text.toList ++ (" AS ".toList ++
      (w.toList ++ (")".toList ++ rest)))) := lexes_lparen _
    have hcast : Lexes "cast".toList [keyToken "cast" "CAST"] ("(".toList ++ (text.toList ++
        (" AS ".toList ++ (w.toList ++ (")".toList ++ rest))))) :=
      lexes_key (by decide) (endsWord_lparen _)
    have has : Lexes "AS ".toList [keyToken "AS" "AS"] (w.toList ++ (")".toList ++ rest)) :=
      lexes_key_space "AS" "AS" (by decide) _
    have hend : Breaks (")".toList ++ rest) := .cons (by decide)
    have hword : Lexes w.toList [.ofWord w] (")".toList ++ rest) := lexes_word hw.1 hend.endsWord
    have hoperand : Lexes text.toList e.tokens
        (" AS ".toList ++ (w.toList ++ (")".toList ++ rest))) := h.lexes _ (.cons (by decide))
    have hlexes := ((((hcast.append hparen).append hoperand).append
      ((lexes_space _).append has)).append hword).append (lexes_rparen rest)
    have htype : (wordType w).sql = w := (Filter.readsBack_wordType hw).1
    rw [Expr.tokens, htype]
    simpa using hlexes
  head := ⟨'c', _, by simp only [String.toList_append, List.append_assoc]; rfl, by decide⟩

end Spelt

namespace Filter

/-! ## The operands of signs -/

theorem startsWithSign_signedText {op : UnaryOp} (hop : op ≠ .not) (operand : String) :
    startsWithSign (signedText op operand) = true := by
  have happend : ∀ rest : String, startsWithSign (op.text ++ rest) = true := by
    intro rest
    cases op <;> first
      | exact absurd rfl hop
      | exact startsWithSign_append (by decide) rest
  unfold signedText
  split
  · rw [String.append_assoc, String.append_assoc]
    exact happend _
  · exact happend _

/-- The operand of a sign is enclosed once more if its text begins with a sign. -/
theorem signOperand_reading {op : UnaryOp} (hop : op ≠ .not) {e : Filter} (h : Writable e)
    (hs : 8 ≤ e.strength) :
    signOperand op e.reading =
      if startsWithSign e.render then .nested e.reading else e.reading := by
  cases h with
  | column hsql hname =>
    rename_i ref
    have hunsigned : startsWithSign (column ref).render = false := by
      rw [render_column, hsql]
      exact startsWithSign_name hname
    rw [hunsigned]
    rfl
  | number n =>
    have hunsigned : startsWithSign (value (.number n.text)).render = false := by
      obtain ⟨c, cs, hcs, hc⟩ := numeral_head n.spelled
      refine startsWithSign_eq_false hcs ⟨?_, ?_⟩
      · rintro rfl
        exact absurd hc (by decide)
      · rintro rfl
        exact absurd hc (by decide)
    rw [hunsigned]
    rfl
  | string text =>
    have hunsigned : startsWithSign (value (.string text)).render = false :=
      startsWithSign_eq_false (Spelt.toList_string_sql text) (by decide)
    rw [hunsigned]
    rfl
  | boolean b => cases b <;> rfl
  | null => rfl
  | unary op' h =>
    rename_i e
    have hop' : op' ≠ .not := by
      rintro rfl
      exact absurd hs (show ¬ 8 ≤ 3 by decide)
    rw [render_unary, startsWithSign_signedText hop', if_pos rfl, reading]
    cases op' <;> first
      | exact absurd rfl hop'
      | exact if_neg hop
  | binary op' hl hr => exact absurd hs (by cases op' <;> exact of_decide_eq_true rfl)
  | logical op' hl hr => exact absurd hs (by cases op' <;> exact of_decide_eq_true rfl)
  | isNull negated h => exact absurd hs (show ¬ 8 ≤ 4 by decide)
  | inList negated h hitems => exact absurd hs (show ¬ 8 ≤ 4 by decide)
  | between negated h hl hh => exact absurd hs (show ¬ 8 ≤ 4 by decide)
  | like negated ignoreCase h hp => exact absurd hs (show ¬ 8 ≤ 4 by decide)
  | cast h htype =>
    rename_i e type
    have hunsigned : startsWithSign (cast e type).render = false := by
      rw [render_cast, String.append_assoc, String.append_assoc, String.append_assoc]
      exact startsWithSign_append (by decide) _
    rw [hunsigned]
    rfl
  | call hname hargs =>
    rename_i name args
    have hunsigned : startsWithSign (call name args).render = false := by
      obtain ⟨c, cs, hcs, -⟩ := name_head hname
      rw [render_call, String.append_assoc, String.append_assoc,
        startsWithSign_append (by simp [hcs])]
      exact startsWithSign_name hname
    rw [hunsigned]
    rfl

theorem strength_sign {op : UnaryOp} (hop : op ≠ .not) (e : Filter) :
    strength (.unary op e) = 8 := by
  cases op <;> first
    | exact absurd rfl hop
    | rfl

theorem signOperand_enclosed {op : UnaryOp} (hop : op ≠ .not) {e : Filter} (h : Writable e) :
    signOperand op (enclosed 8 e.strength e.reading) =
      if startsWithSign (guarded 8 e.strength e.render) then
        .nested (enclosed 8 e.strength e.reading) else enclosed 8 e.strength e.reading := by
  unfold enclosed guarded
  by_cases hweak : e.strength < 8
  · rw [if_pos hweak, if_pos hweak, startsWithSign_paren]
    rfl
  · rw [if_neg hweak, if_neg hweak]
    exact signOperand_reading hop h (by omega)

theorem spelt_sign {op : UnaryOp} (hop : op ≠ .not) {e : Filter} (h : Writable e)
    (hspelt : Spelt e.render e.reading) : Spelt (unary op e).render (unary op e).reading := by
  rw [render_unary, reading, strength_sign hop, signOperand_enclosed hop h]
  exact (hspelt.guarded 8 e.strength).signed hop

theorem signedText_not (operand : String) :
    signedText .not operand = UnaryOp.not.text ++ operand := if_neg fun h ↦ h.1 rfl

theorem signOperand_not (e : Expr) : signOperand .not e = e :=
  (signOperand_cases .not e).resolve_right fun h ↦ h.1 rfl

theorem spelt_renderAll {ts : List Filter} (h : ∀ t ∈ ts, Spelt t.render t.reading) :
    List.Forall₂ Spelt (ts.map render) (readingAll ts) := by
  rw [readingAll_eq_map, List.forall₂_map_left_iff, List.forall₂_map_right_iff]
  exact List.forall₂_same.2 h

/-- The text of a filter has the tokens of its reading. -/
theorem spelt_render {t : Filter} (h : Writable t) : Spelt t.render t.reading := by
  induction h with
  | column hsql hname =>
    rename_i ref
    rw [reading, render_column, hsql]
    exact .of_name hname
  | number n =>
    rw [reading, Value.reading_number]
    exact .number n
  | string text => exact .string text
  | boolean b => exact .boolean b
  | null => exact .null
  | unary op h ih =>
    by_cases hop : op = .not
    · subst hop
      rw [render_unary, reading, signedText_not, signOperand_not]
      exact (ih.guarded _ _).not
    · exact spelt_sign hop h ih
  | binary op hl hr ihl ihr =>
    rename_i left right
    have hloose := (fits hr).loose_right (.binary op)
    rw [reading_binary]
    exact (ihl.guarded _ _).joined (ihr.guarded _ _) (.binary op) (Expr.tokens_attach hloose)
  | logical op hl hr ihl ihr =>
    rename_i left right
    have hloose := (fits hr).loose_right (.logical op)
    rw [reading_logical, render_logical, strength_logical]
    exact (ihl.guarded _ _).joined (ihr.guarded _ _) (.logical op) (Expr.tokens_attach hloose)
  | isNull negated h ih => exact (ih.guarded _ _).isNull negated
  | inList negated h hitems ih ihitems =>
    rw [render_inList]
    exact (ih.guarded _ _).inList (spelt_renderAll ihitems) negated
  | between negated h hl hh ih ihl ihh =>
    exact (ih.guarded _ _).between (ihl.guarded _ _) (ihh.guarded _ _) negated
  | like negated ignoreCase h hp ih ihp =>
    exact (ih.guarded _ _).like (ihp.guarded _ _) negated ignoreCase
  | cast h htype ih => exact ih.cast htype
  | call hname hargs ih =>
    rw [render_call]
    exact .call hname (spelt_renderAll ih)

/-! ## Reading a written filter -/

open Sql.Grammar (Spells expression maxDepth) in
/-- A filter that was written is read as its reading. -/
theorem parse_render {t : Filter} (h : Writable t) (hdepth : t.reading.depth < maxDepth) :
    parse t.render = .ok (ofExpr t.reading) := by
  have hlexes := (spelt_render h).lexes [] (by simp [Breaks])
  obtain ⟨ls, hls, hlex⟩ := hlexes.lex
  have hread : expression ls = .ok (t.reading, []) :=
    Sql.Grammar.expression_eq (fits h).grouped hdepth hls
  have hexpr : parseExpr t.render = .ok t.reading := by
    simp [parseExpr, hlex, hread, bind, Except.bind, pure, Except.pure]
  simp [parse, hexpr, bind, Except.bind, pure, Except.pure]

end Filter

end Funnel
