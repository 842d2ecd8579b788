import Mathlib
import Funnel.Proofs.Names
import Funnel.Proofs.Progress
import Funnel.Proofs.Respelling

/-!
# Tokens of Names

The parts of a name among the tokens of a text.  A token that can be a part is a word of the text
or stands in quotes (`lexed_of_lex`).  What is written for a name of such parts falls into the same
tokens again if and only if the quotes inside its parts stand apart (`lex_dottedSql_iff`): a part
with other quotes would have to be closed behind the period that follows it.
-/

namespace Funnel.Sql

/-! ## Tokens of names -/

/-- The part of a name that a token can be. -/
def Token.ident? : Token → Option Ident
  | word name _ => some name
  | string .plain text => some (.quoted .single text)
  | _ => none

/-- The token of a part of a name. -/
def Ident.token (i : Ident) : Token :=
  match i.quote with
  | none => .word i (Keyword.ofWord? i.text)
  | some .single => .string .plain i.text
  | some _ => .word i none

/-- The tokens of the parts of a name behind its first part, each with its period. -/
def Ident.tailTokens (parts : List Ident) : List Token :=
  parts.flatMap fun i ↦ [.symbol .period, i.token]

theorem Ident.tailTokens_cons (i : Ident) (parts : List Ident) :
    tailTokens (i :: parts) = .symbol .period :: i.token :: tailTokens parts := rfl

namespace Lexer

theorem exists_of_word {first cs rest : List Char} {found : Option Token}
    (h : word first cs = .ok (found, rest)) :
    ∃ ds, cs = ds ++ rest ∧ (∀ d ∈ ds, isWordPart d = true) ∧
      found = some (.ofWord (String.ofList (first ++ ds))) := by
  simp only [word, token, Except.ok.injEq, Prod.mk.injEq] at h
  refine ⟨cs.takeWhile isWordPart, ?_, fun d hd ↦ List.mem_takeWhile_imp hd, h.1.symm⟩
  rw [← h.2, List.takeWhile_append_dropWhile]

/-- Whether `#` or `@` begins a sign is seen from the character behind it. -/
theorem read_sigil_eq_none {c d : Char} {cs : List Char} (hc : c = '#' ∨ c = '@')
    (h : Symbol.read (c :: d :: cs) = none) (ds : List Char) :
    Symbol.read (c :: d :: ds) = none := by
  have hcheck : ∀ p ∈ Symbol.spellings, p.1 ≠ [] ∧ (p.1.head? = some '#' ∨ p.1.head? = some '@' →
      2 ≤ p.1.length ∧ ∃ p' ∈ Symbol.spellings, p'.1 = p.1.take 2) := by decide
  rw [Symbol.read, List.findSome?_eq_none_iff] at h ⊢
  rintro ⟨spelling, s⟩ hmem
  obtain ⟨hnil, hspelling⟩ := hcheck _ hmem
  rw [ite_eq_right_iff]
  intro hprefix
  obtain ⟨x, rest, rfl⟩ := List.exists_cons_of_ne_nil hnil
  simp only [List.isPrefixOf, Bool.and_eq_true, beq_iff_eq] at hprefix
  obtain ⟨rfl, hrest⟩ := hprefix
  obtain ⟨hlength, ⟨spelling', s'⟩, hmem', htwo⟩ := hspelling (by simpa using hc)
  have hpos : 0 < rest.length := by
    rw [List.length_cons] at hlength
    omega
  obtain ⟨y, rest, rfl⟩ := List.exists_cons_of_length_pos hpos
  obtain rfl : spelling' = [x, y] := by simpa using htwo
  obtain ⟨rfl, -⟩ : y = d ∧ rest.isPrefixOf ds = true := by
    simpa [List.isPrefixOf] using hrest
  exact absurd (h _ hmem') (by simp [List.isPrefixOf])

/-- The text is read as one word, whatever part of a name stands before the text behind it. -/
def IsToken (text : List Char) : Prop :=
  ∃ c ds, text = c :: ds ∧ isBare text = true ∧
    ∀ rest, EndsPart rest → scan c (ds ++ rest) = token (.ofWord (String.ofList text)) rest

theorem EndsPart.endsWord {rest : List Char} (h : EndsPart rest) : EndsWord rest := by
  intro d hd
  obtain rfl : d = '.' := h d hd
  exact ⟨by decide, by decide⟩

theorem scan_sigil {c : Char} (hc : c = '#' ∨ c = '@') (cs : List Char) :
    scan c cs = scanPlain c cs := by
  rcases hc with rfl | rfl <;> rfl

/-- What begins with a sign and goes on with word characters is a word if it was one before. -/
theorem isToken_of_sigil {c : Char} {first ds : List Char} (hc : c = '#' ∨ c = '@')
    (hds : ∀ d ∈ ds, isWordPart d = true) (hbare : isBare (c :: first ++ ds) = true)
    (hscan : ∀ cs, scanPlain c (first ++ cs) = word (c :: first) cs) :
    IsToken (c :: (first ++ ds)) := by
  refine ⟨c, first ++ ds, rfl, hbare, fun rest hrest ↦ ?_⟩
  rw [scan_sigil hc, List.append_assoc, hscan, word_append hds hrest.endsWord]
  rfl

theorem isBare_lead {first ds : List Char} (hstart : first.head?.any isWordStart = true)
    (hlead : leadLength (first ++ ds) = first.length) (hds : ∀ d ∈ ds, isWordPart d = true) :
    isBare (first ++ ds) = true := by
  have hhead : (first ++ ds).head?.any isWordStart = true := by
    cases first with
    | nil => simp at hstart
    | cons c first => exact hstart
  rw [isBare, hlead, hhead, List.drop_left, List.all_eq_true.2 hds]
  simp

/-- The step finds nothing that can be a part of a name. -/
def Nameless (step : Step) : Prop := ∀ t rest, step = .ok (some t, rest) → t.ident? = none

theorem nameless_token {t : Token} (h : t.ident? = none) (rest : List Char) :
    Nameless (token t rest) := by
  intro u rest' heq
  obtain rfl : t = u := by simpa [token] using (Prod.mk.inj (Except.ok.inj heq)).1
  exact h

theorem nameless_fault (f : LexicalFault) (left : Nat) : Nameless (fault f left) := by
  rintro t rest ⟨⟩

theorem Nameless.elim {step : Step} (hstep : Nameless step) {t : Token} {rest : List Char}
    {i : Ident} (h : step = .ok (some t, rest)) (hi : t.ident? = some i) {p : Prop} : p := by
  rw [hstep t rest h] at hi
  cases hi

theorem nameless_quoted {style : StringStyle} (h : style ≠ .plain) (q : Char) (cs : List Char) :
    Nameless (quoted style q cs) := by
  unfold quoted
  split
  · apply nameless_token
    cases style <;> first | rfl | exact absurd rfl h
  · exact nameless_fault _ _

theorem nameless_rawString (double : Bool) (q : Char) (cs : List Char) :
    Nameless (rawString double q cs) := by
  unfold rawString
  split_ifs
  · split
    · exact nameless_token rfl _
    · exact nameless_fault _ _
  · exact nameless_token rfl _
  · split
    · exact nameless_token rfl _
    · exact nameless_fault _ _

theorem nameless_codedString {style : StringStyle} (h : style ≠ .plain) (cs : List Char) :
    Nameless (codedString style cs) := by
  unfold codedString
  split
  · apply nameless_token
    cases style <;> first | rfl | exact absurd rfl h
  · exact nameless_fault _ _

theorem nameless_escapedString (cs : List Char) : Nameless (escapedString cs) := by
  unfold escapedString
  split
  · exact nameless_token rfl _
  · exact nameless_fault _ _

theorem nameless_codePointString (cs : List Char) : Nameless (codePointString cs) := by
  unfold codePointString
  split
  · exact nameless_token rfl _
  · exact nameless_fault _ _

theorem nameless_number (cs : List Char) : Nameless (number cs) := by
  unfold number
  split
  · exact nameless_token rfl _
  · split <;> exact nameless_token rfl _

theorem nameless_dollar (cs : List Char) : Nameless (dollar cs) := by
  unfold dollar
  split
  · split
    · exact nameless_token rfl _
    · exact nameless_fault _ _
  · dsimp only
    split
    · split
      · exact nameless_token rfl _
      · exact nameless_fault _ _
    · exact nameless_token rfl _

/-- A word of the text is a token of its own in front of the end of a part. -/
theorem isToken_of_scanPlain {c : Char} {cs rest : List Char} {t : Token} {i : Ident}
    (h : scanPlain c cs = .ok (some t, rest)) (hi : t.ident? = some i) :
    ∃ ds, cs = ds ++ rest ∧ t = Token.ofWord (String.ofList (c :: ds)) ∧ IsToken (c :: ds) := by
  unfold scanPlain at h
  split at h
  · exact (nameless_token rfl _).elim h hi
  next hread =>
  split_ifs at h with hat hsharp hquestion hstart hdollar hblank
  · subst hat
    unfold atWord at h
    split at h
    · split at h
      · exact (nameless_token rfl _).elim h hi
      · exact (nameless_token rfl _).elim h hi
      · next d _ _ =>
        obtain ⟨ds, rfl, hds, hword⟩ := exists_of_word h
        refine ⟨'@' :: d :: ds, rfl, Option.some.inj hword, ?_⟩
        have hlead : isBare (['@', '@', d] ++ ds) = true := isBare_lead rfl rfl hds
        refine isToken_of_sigil (.inr rfl) hds hlead fun cs ↦ ?_
        simp [scanPlain, read_sigil_eq_none (.inr rfl) hread, atWord]
    · exact (nameless_token rfl _).elim h hi
    · exact (nameless_token rfl _).elim h hi
    · next d _ hone _ =>
      obtain ⟨ds, rfl, hds, hword⟩ := exists_of_word h
      have hat : d ≠ '@' := hone
      have hlead : isBare (['@', d] ++ ds) = true :=
        isBare_lead rfl (by simp [leadLength, hat]) hds
      refine ⟨d :: ds, rfl, Option.some.inj hword, ?_⟩
      refine isToken_of_sigil (.inr rfl) hds hlead fun cs ↦ ?_
      simp [scanPlain, read_sigil_eq_none (.inr rfl) hread, atWord]
  · subst hsharp
    unfold sharpWord at h
    split at h
    · exact (nameless_token rfl _).elim h hi
    · exact (nameless_token rfl _).elim h hi
    · next d _ _ =>
      obtain ⟨ds, rfl, hds, hword⟩ := exists_of_word h
      have hlead : isBare (['#', d] ++ ds) = true := isBare_lead rfl rfl hds
      refine ⟨d :: ds, rfl, Option.some.inj hword, ?_⟩
      refine isToken_of_sigil (.inl rfl) hds hlead fun cs ↦ ?_
      simp [scanPlain, read_sigil_eq_none (.inl rfl) hread, sharpWord]
  · exact (nameless_token rfl _).elim h hi
  · obtain ⟨ds, rfl, hds, hword⟩ := exists_of_word h
    have hsign : c :: ds ∉ [['#'], ['@'], ['@', '@']] := by simp [hat, hsharp]
    have hisWord : IsWord (c :: ds) := ⟨⟨c, ds, rfl, hstart, hds⟩, hsign⟩
    refine ⟨ds, rfl, Option.some.inj hword, c, ds, rfl, isBare_of_isWord hisWord, ?_⟩
    intro rest' hrest
    obtain ⟨_, _, heq, hscan⟩ := scan_word hisWord hrest.endsWord
    obtain ⟨rfl, rfl⟩ := List.cons.inj heq
    exact hscan
  · exact (nameless_dollar _).elim h hi
  · cases h
  · exact (nameless_token rfl _).elim h hi

end Lexer

namespace Ident

open Text.Quoted (Apart)

/-! ## Parts of names as they are read -/

/-- A part without quotes is a word of a text. -/
def Lexed (i : Ident) : Prop := i.quote = none → Lexer.IsToken i.text.toList

/-- The quotes inside a part stand apart. -/
def QuotesApart (i : Ident) : Prop := ∀ q ∈ i.quote, Apart q.char i.text.toList

instance : DecidablePred QuotesApart := fun i ↦
  inferInstanceAs (Decidable (∀ q ∈ i.quote, Apart q.char i.text.toList))

theorem lexed_quoted (q : NameQuote) (text : String) : (quoted q text).Lexed := by
  rintro ⟨⟩

theorem token_quoted {q : NameQuote} (h : q ≠ .single) (text : String) :
    (quoted q text).token = .word (quoted q text) none := by
  cases q <;> first | rfl | exact absurd rfl h

theorem token_of_bare {i : Ident} (h : i.quote = none) : i.token = .ofWord i.text := by
  have hplain : plain i.text = i :=
    Ident.ext (plain_text i.text) ((plain_quote (i.bare h)).trans h.symm)
  rw [token, h, Token.ofWord, hplain]

theorem token_ne_symbol (i : Ident) (s : Symbol) : i.token ≠ .symbol s := by
  unfold token
  split <;> simp

theorem ident?_token (i : Ident) : i.token.ident? = some i := by
  unfold token
  split
  · rfl
  · next hquote => exact congrArg some (Ident.ext rfl hquote.symm)
  · rfl

/-- Two parts in the same quotes have different tokens if they are different. -/
theorem eq_of_token_eq {i j : Ident} (hquote : i.quote = j.quote) (h : i.token = j.token) :
    i = j := by
  refine Ident.ext ?_ hquote
  unfold token at h
  rw [← hquote] at h
  split at h
  · exact congrArg text (Token.word.inj h).1
  · exact (Token.string.inj h).2
  · exact congrArg text (Token.word.inj h).1

end Ident

/-- If the token can be a part of a name, it is the token of that part as a text gives it. -/
def Token.Lexed (t : Token) : Prop := ∀ i, t.ident? = some i → i.token = t ∧ i.Lexed

namespace Lexer

/-! ## Names among the tokens of a text -/

/-- If the step finds a part of a name, the part has this token and is a word or in quotes. -/
theorem lexed_of_quotedName {quote : NameQuote} (hquote : quote ≠ .single) {cs rest : List Char}
    {t : Token} {i : Ident} (h : quotedName quote cs = .ok (some t, rest))
    (hi : t.ident? = some i) : i.token = t ∧ i.Lexed := by
  unfold quotedName at h
  split at h
  · next s rest' hread =>
    obtain rfl : .word (.quoted quote (String.ofList s)) none = t := by
      simpa [token] using (Prod.mk.inj (Except.ok.inj h)).1
    obtain rfl : Ident.quoted quote (String.ofList s) = i := Option.some.inj hi
    exact ⟨Ident.token_quoted hquote _, Ident.lexed_quoted _ _⟩
  · simp [fault] at h

theorem lexed_of_quoted {cs rest : List Char} {t : Token} {i : Ident}
    (h : quoted .plain '\x27' cs = .ok (some t, rest)) (hi : t.ident? = some i) :
    i.token = t ∧ i.Lexed := by
  unfold quoted at h
  split at h
  · next s rest' hread =>
    obtain rfl : .string .plain (String.ofList s) = t := by
      simpa [token] using (Prod.mk.inj (Except.ok.inj h)).1
    obtain rfl : Ident.quoted .single (String.ofList s) = i := Option.some.inj hi
    exact ⟨rfl, Ident.lexed_quoted _ _⟩
  · simp [fault] at h

theorem lexed_of_scanPlain {c : Char} {cs rest : List Char} {t : Token} {i : Ident}
    (h : scanPlain c cs = .ok (some t, rest)) (hi : t.ident? = some i) :
    i.token = t ∧ i.Lexed := by
  obtain ⟨ds, rfl, rfl, hword⟩ := isToken_of_scanPlain h hi
  obtain rfl : Ident.plain (String.ofList (c :: ds)) = i := Option.some.inj hi
  have hquote : (Ident.plain (String.ofList (c :: ds))).quote = none := by
    apply Ident.plain_quote
    obtain ⟨_, _, -, hbare, -⟩ := hword
    rwa [String.toList_ofList]
  refine ⟨?_, fun _ ↦ ?_⟩
  · rw [Ident.token_of_bare hquote, Ident.plain_text]
  · rwa [Ident.plain_text, String.toList_ofList]

theorem lexed_of_scan {c : Char} {cs rest : List Char} {t : Token} {i : Ident}
    (h : scan c cs = .ok (some t, rest)) (hi : t.ident? = some i) : i.token = t ∧ i.Lexed := by
  revert h
  unfold scan
  split
  all_goals intro h
  · exact lexed_of_quoted h hi
  · exact lexed_of_quotedName (by decide) h hi
  · exact lexed_of_quotedName (by decide) h hi
  · cases h
  · split at h <;> cases h
  any_goals exact (nameless_quoted (by simp) _ _).elim h hi
  any_goals exact (nameless_rawString _ _ _).elim h hi
  any_goals exact (nameless_codedString (by simp) _).elim h hi
  any_goals exact (nameless_escapedString _).elim h hi
  any_goals exact (nameless_codePointString _).elim h hi
  any_goals exact (nameless_number _).elim h hi
  split_ifs at h
  · exact (nameless_number _).elim h hi
  · exact lexed_of_scanPlain h hi

/-- Every name of a text is a word of it or stands in quotes. -/
theorem lexed_of_lex {cs : List Char} {ls : List Lexeme} (h : lex cs = .ok ls) :
    ∀ t ∈ ls.map Lexeme.token, t.Lexed := by
  refine lex_induction (motive := fun _ ts ↦ ∀ t ∈ ts, t.Lexed) (by simp) ?_ h
  intro c cs found rest ts hscan ih t ht
  rcases List.mem_append.1 ht with ht | ht
  · obtain rfl : found = some t := by simpa using ht
    exact fun i hi ↦ lexed_of_scan hscan hi
  · exact ih t ht

end Lexer

namespace Ident

open Lexer (EndsPart Lexes lex scan of_lex_cons)
open Text.Quoted (Apart encode respell read)

/-! ## Names that are read as they were -/

theorem head_not_digit (i : Ident) (rest : List Char) :
    ∀ c ∈ (i.sql.toList ++ rest).head?, c.isDigit = false := by
  obtain ⟨c, cs, hcs, -⟩ := toList_sql_head i
  intro d hd
  obtain rfl : c = d := by simpa [hcs] using hd
  cases hi : i.quote with
  | none =>
    obtain ⟨d, ds, hds, hstart⟩ := Lexer.head_of_isBare (i.bare hi)
    rw [sql_of_bare hi, hds] at hcs
    obtain ⟨rfl, -⟩ := List.cons.inj hcs
    exact Lexer.not_isDigit_of_isWordStart hstart
  | some q =>
    rw [sql_of_quoted hi] at hcs
    obtain ⟨rfl, -⟩ := List.cons.inj hcs
    cases q <;> rfl

/-- A quote opens a part of a name. -/
theorem scan_quoted {q : NameQuote} {cs s rest : List Char}
    (h : read q.char cs = some (s, rest)) :
    scan q.char cs = Lexer.token (quoted q (String.ofList s)).token rest := by
  cases q with
  | double =>
    show Lexer.quotedName .double cs = _
    rw [Lexer.quotedName, h]
    rfl
  | back =>
    show Lexer.quotedName .back cs = _
    rw [Lexer.quotedName, h]
    rfl
  | single =>
    show Lexer.quoted .plain '\x27' ('\x27' :: cs) = _
    have hdrop : read '\x27' (('\x27' :: cs).drop 1) = some (s, rest) := h
    rw [Lexer.quoted, hdrop]
    rfl

theorem exists_read_of_scan {q : NameQuote} {cs rest : List Char} {found : Option Token}
    (h : scan q.char cs = .ok (found, rest)) :
    ∃ s, read q.char cs = some (s, rest) ∧ found = some (quoted q (String.ofList s)).token := by
  cases hread : read q.char cs with
  | some p =>
    obtain ⟨s, rest'⟩ := p
    rw [scan_quoted hread] at h
    obtain ⟨rfl, rfl⟩ := Prod.mk.inj (Except.ok.inj h)
    exact ⟨s, rfl, rfl⟩
  | none =>
    cases q with
    | double =>
      have h : Lexer.quotedName .double cs = .ok (found, rest) := h
      rw [Lexer.quotedName, hread] at h
      cases h
    | back =>
      have h : Lexer.quotedName .back cs = .ok (found, rest) := h
      rw [Lexer.quotedName, hread] at h
      cases h
    | single =>
      have h : Lexer.quoted .plain '\x27' ('\x27' :: cs) = .ok (found, rest) := h
      have hdrop : read '\x27' (('\x27' :: cs).drop 1) = none := hread
      rw [Lexer.quoted, hdrop] at h
      cases h

theorem lexes_sql {i : Ident} (hlexed : i.Lexed) (hapart : i.QuotesApart) {rest : List Char}
    (hrest : EndsPart rest) : Lexes i.sql.toList [i.token] rest := by
  cases hi : i.quote with
  | none =>
    obtain ⟨c, ds, htext, -, hscan⟩ := hlexed hi
    rw [sql_of_bare hi, token_of_bare hi, htext]
    refine .of_scan (some (.ofWord i.text)) ?_
    rw [hscan rest hrest, String.ofList_toList]
    rfl
  | some q =>
    have hhead : rest.head? ≠ some q.char := fun h ↦ q.char_ne_period.symm (hrest _ h)
    have hread : read q.char (respell q.char false i.text.toList ++ [q.char] ++ rest) =
        some (i.text.toList, rest) := by
      rw [(hapart q hi).respell_eq, List.append_assoc]
      exact Text.Quoted.read_encode _ _ _ hhead
    have hquoted : quoted q (String.ofList i.text.toList) = i :=
      Ident.ext String.ofList_toList hi.symm
    rw [sql_of_quoted hi]
    refine .of_scan (some i.token) ?_
    rw [scan_quoted hread, hquoted]
    rfl

theorem lexes_sql_append {i : Ident} (hlexed : i.Lexed) (hapart : i.QuotesApart)
    {parts : List Ident} {us : List Token} (h : Lexes (tail sql parts) us []) :
    Lexes (i.sql.toList ++ tail sql parts) (i.token :: us) [] := by
  refine (lexes_sql hlexed hapart ?_).append h
  rw [List.append_nil]
  exact endsPart_tail sql parts

theorem lexes_tail {parts : List Ident} (hlexed : ∀ i ∈ parts, i.Lexed)
    (hapart : ∀ i ∈ parts, i.QuotesApart) : Lexes (tail sql parts) (tailTokens parts) [] := by
  induction parts with
  | nil => exact .nil []
  | cons i parts ih =>
    obtain ⟨hi, hparts⟩ := List.forall_mem_cons.1 hlexed
    obtain ⟨hi', hparts'⟩ := List.forall_mem_cons.1 hapart
    have hpart := lexes_sql_append hi hi' (ih hparts hparts')
    have hperiod : Lexes ['.'] [.symbol .period] (i.sql.toList ++ tail sql parts ++ []) := by
      rw [List.append_assoc]
      exact Lexer.lexes_period (head_not_digit i _)
    exact hperiod.append hpart

/-- The reader gets back to the end of a part only if the quotes inside it stand apart. -/
theorem of_lex_sql {i : Ident} (hlexed : i.Lexed) {rest : List Char} (hrest : EndsPart rest)
    {ls : List Lexeme} {t : Token} {us : List Token} (h : lex (i.sql.toList ++ rest) = .ok ls)
    (hls : ls.map Lexeme.token = t :: us) :
    ∃ j : Ident, t = j.token ∧ (t = i.token → i.QuotesApart ∧
      ∃ ls', lex rest = .ok ls' ∧ ls'.map Lexeme.token = us) := by
  cases hi : i.quote with
  | none =>
    obtain ⟨c, ds, htext, -, hscan⟩ := hlexed hi
    rw [sql_of_bare hi, htext, List.cons_append] at h
    obtain ⟨found, rest', ls', hscan', hrun, htokens⟩ := of_lex_cons h
    rw [hscan rest hrest, String.ofList_toList] at hscan'
    obtain ⟨rfl, rfl⟩ := Prod.mk.inj (Except.ok.inj hscan')
    obtain ⟨rfl, rfl⟩ := List.cons.inj (hls.symm.trans htokens)
    exact ⟨i, (token_of_bare hi).symm, fun _ ↦ ⟨by simp [QuotesApart, hi], ls', hrun, rfl⟩⟩
  | some q =>
    have hsql : i.sql.toList ++ rest =
        q.char :: (respell q.char false i.text.toList ++ q.char :: rest) := by
      rw [sql_of_quoted hi, List.cons_append, List.append_assoc]
      rfl
    rw [hsql] at h
    obtain ⟨found, rest', ls', hscan, hrun, htokens⟩ := of_lex_cons h
    obtain ⟨s, hread, rfl⟩ := exists_read_of_scan hscan
    obtain ⟨rfl, rfl⟩ := List.cons.inj (hls.symm.trans htokens)
    refine ⟨quoted q (String.ofList s), rfl, fun htoken ↦ ?_⟩
    have heq : quoted q (String.ofList s) = i := eq_of_token_eq hi.symm htoken
    obtain rfl : s = i.text.toList := by rw [← heq, quoted, String.toList_ofList]
    obtain ⟨hapart, rfl⟩ := Text.Quoted.apart_of_read q.char_ne_period hrest hread
    refine ⟨fun q' hq' ↦ ?_, ls', hrun, rfl⟩
    obtain rfl : q = q' := Option.some.inj (hi.symm.trans hq')
    exact hapart

theorem quotesApart_of_lex_tail {parts : List Ident} (hlexed : ∀ i ∈ parts, i.Lexed)
    {ls : List Lexeme} (h : lex (tail sql parts) = .ok ls)
    (hls : ls.map Lexeme.token = tailTokens parts) : ∀ i ∈ parts, i.QuotesApart := by
  induction parts generalizing ls with
  | nil => simp
  | cons i parts ih =>
    obtain ⟨hi, hparts⟩ := List.forall_mem_cons.1 hlexed
    have htail : tail sql (i :: parts) = '.' :: (i.sql.toList ++ tail sql parts) := rfl
    rw [htail] at h
    obtain ⟨found, rest, ls', hscan, hrun, htokens⟩ := of_lex_cons h
    rw [Lexer.scan_period (head_not_digit i _)] at hscan
    obtain ⟨rfl, rfl⟩ := Prod.mk.inj (Except.ok.inj hscan)
    have hls' : ls'.map Lexeme.token = i.token :: tailTokens parts :=
      (List.cons.inj (htokens.symm.trans hls)).2
    obtain ⟨_, -, hback⟩ := of_lex_sql hi (endsPart_tail sql parts) hrun hls'
    obtain ⟨hapart, ls'', hrun', hls''⟩ := hback rfl
    exact List.forall_mem_cons.2 ⟨hapart, ih hparts hrun' hls''⟩

/-- What is written for a name is read as its parts exactly if their quotes stand apart. -/
theorem lex_dottedSql_iff {i : Ident} {parts : List Ident} (hlexed : ∀ j ∈ i :: parts, j.Lexed) :
    (∃ ls, lex (dottedSql (i :: parts)).toList = .ok ls ∧
      ls.map Lexeme.token = i.token :: tailTokens parts) ↔ ∀ j ∈ i :: parts, j.QuotesApart := by
  obtain ⟨hi, hparts⟩ := List.forall_mem_cons.1 hlexed
  rw [dottedSql, toList_dotted]
  constructor
  · rintro ⟨ls, hlex, hls⟩
    obtain ⟨_, -, hback⟩ := of_lex_sql hi (endsPart_tail sql parts) hlex hls
    obtain ⟨hapart, ls', hrun, hls'⟩ := hback rfl
    exact List.forall_mem_cons.2 ⟨hapart, quotesApart_of_lex_tail hparts hrun hls'⟩
  · intro hapart
    obtain ⟨hi', hparts'⟩ := List.forall_mem_cons.1 hapart
    obtain ⟨ls, hls, hlex⟩ := (lexes_sql_append hi hi' (lexes_tail hparts hparts')).lex
    exact ⟨ls, hlex, hls⟩

/-- Nothing stands in front of the first part. -/
theorem exists_token_of_lex {i : Ident} {parts : List Ident} (hi : i.Lexed) {ls : List Lexeme}
    (h : lex (dottedSql (i :: parts)).toList = .ok ls) {t : Token} {us : List Token}
    (hls : ls.map Lexeme.token = t :: us) : ∃ j : Ident, t = j.token := by
  rw [dottedSql, toList_dotted] at h
  obtain ⟨j, hj, -⟩ := of_lex_sql hi (endsPart_tail sql parts) h hls
  exact ⟨j, hj⟩

end Ident

end Funnel.Sql
