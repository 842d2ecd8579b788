import Mathlib
import Funnel.Proofs.NameReading

/-!
# Texts of Columns

A column that has been read from a text is written again wherever its filter is.  What is written is
read as the same column if and only if the quotes inside the parts of its name stand apart
(`parse_sql_iff`).
-/

namespace Funnel

open Sql (Ident Lexeme)
open Sql.Grammar (NamesColumn Spells)

/-! ## Names that have been read -/

theorem Sql.Grammar.NamesColumn.token_mem {parts : List Ident} {us : List Sql.Token}
    (h : NamesColumn parts us) : ∀ i ∈ parts, i.token ∈ us := by
  induction h with
  | name hi parts =>
    intro j hj
    rcases List.mem_cons.1 hj with rfl | hj
    · exact List.mem_cons_self
    · refine List.mem_cons_of_mem _ ?_
      simp only [Ident.tailTokens, List.mem_flatMap]
      exact ⟨j, hj, by simp⟩
  | nested h ih =>
    intro j hj
    simpa using .inr (.inl (ih j hj))

theorem Sql.Grammar.NamesColumn.exists_opens {parts : List Ident} {us : List Sql.Token}
    (h : NamesColumn parts us) : ∃ i is, parts = i :: is ∧ i.Opens := by
  induction h with
  | name hi parts => exact ⟨_, parts, rfl, hi⟩
  | nested h ih => exact ih

namespace Filter

/-- A filter is read from the tokens of its text as an expression with nothing behind it. -/
theorem exists_expression_of_parse {source : String} {t : Filter} (h : parse source = .ok t) :
    ∃ ls e, Sql.Lexer.lex source.toList = .ok ls ∧ Sql.Grammar.expression ls = .ok (e, []) ∧
      ofExpr e = t := by
  cases hlex : Sql.Lexer.lex source.toList with
  | error e => simp [parse, parseExpr, hlex, bind, Except.bind] at h
  | ok ls =>
    cases hread : Sql.Grammar.expression ls with
    | error e => simp [parse, parseExpr, hlex, hread, bind, Except.bind] at h
    | ok found =>
      obtain ⟨e, rest⟩ := found
      cases rest with
      | nil =>
        obtain rfl : ofExpr e = t := by
          simpa [parse, parseExpr, hlex, hread, bind, Except.bind, pure, Except.pure] using h
        exact ⟨ls, e, rfl, hread, rfl⟩
      | cons l rest => simp [parse, parseExpr, hlex, hread, bind, Except.bind] at h

/-- A column has been read from the tokens of its name. -/
theorem exists_names_of_parse {source : String} {ref : ColumnRef}
    (h : parse source = .ok (.column ref)) : ∃ parts ls, ref = .ofParts parts ∧
      Sql.Lexer.lex source.toList = .ok ls ∧ NamesColumn parts (ls.map Lexeme.token) := by
  obtain ⟨ls, e, hlex, hread, he⟩ := exists_expression_of_parse h
  obtain ⟨parts, hname, rfl⟩ := exists_name_of_ofExpr e he
  have hlexed : ∀ l ∈ ls, l.token.Lexed := fun l hl ↦
    Sql.Lexer.lexed_of_lex hlex _ (List.mem_map_of_mem hl)
  obtain ⟨us, rfl, hus⟩ :=
    Sql.Grammar.readsNames_nested false Sql.Grammar.maxDepth 0 hlexed hread hname
  rw [List.append_nil] at hlex
  exact ⟨parts, us, rfl, hlex, hus⟩

theorem parse_dottedSql {i : Ident} (hi : i.Opens) {parts : List Ident}
    (hlexed : ∀ j ∈ i :: parts, j.Lexed) (hapart : ∀ j ∈ i :: parts, j.QuotesApart) :
    parse (Ident.dottedSql (i :: parts)) = .ok (.column (.ofParts (i :: parts))) := by
  obtain ⟨ls, hlex, hls⟩ := (Ident.lex_dottedSql_iff hlexed).2 hapart
  have hread := Sql.Grammar.expression_name hi hls
  have hexpr : parseExpr (Ident.dottedSql (i :: parts)) = .ok (.column (i :: parts)) := by
    simp [parseExpr, hlex, hread, bind, Except.bind, pure, Except.pure]
  simp [parse, hexpr, ofExpr, bind, Except.bind, pure, Except.pure]

/-- A column survives being written if and only if the quotes in its name stand apart. -/
theorem parse_sql_iff {source : String} {ref : ColumnRef}
    (h : parse source = .ok (.column ref)) : ∃ parts, ref = .ofParts parts ∧
      (parse ref.sql = .ok (.column ref) ↔ ∀ part ∈ parts, part.QuotesApart) := by
  obtain ⟨parts, ls, rfl, hlex, hnames⟩ := exists_names_of_parse h
  obtain ⟨i, is, rfl, hi⟩ := hnames.exists_opens
  have hlexed : ∀ j ∈ i :: is, j.Lexed := fun j hj ↦
    (Sql.Lexer.lexed_of_lex hlex _ (hnames.token_mem j hj) j j.ident?_token).2
  refine ⟨i :: is, rfl, fun hparse ↦ ?_, parse_dottedSql hi hlexed⟩
  obtain ⟨parts', ls', hparts, hlex', hnames'⟩ := exists_names_of_parse hparse
  obtain rfl := ColumnRef.ofParts_injective hparts
  generalize htokens : ls'.map Lexeme.token = us at hnames'
  cases hnames' with
  | name hi' =>
    exact (Ident.lex_dottedSql_iff hlexed).1 ⟨ls', hlex', htokens⟩
  | nested hnames' =>
    obtain ⟨j, hj⟩ := Ident.exists_token_of_lex (hlexed i List.mem_cons_self) hlex' htokens
    exact absurd hj.symm (j.token_ne_symbol .lparen)

/-- The pair of quotes in `a""b` is written as it is, and read as one quote. -/
theorem column_with_escaped_quotes :
    let first : ColumnRef := .ofParts [.quoted .double "a\x22\x22b"]
    let second : ColumnRef := .ofParts [.quoted .double "a\x22b"]
    parse "\x22a\x22\x22\x22\x22b\x22" = .ok (.column first) ∧
      parse first.sql = .ok (.column second) ∧ parse first.sql ≠ .ok (.column first) ∧
      parse second.sql = .ok (.column second) := by
  intro first second
  have hfirst : parse "\x22a\x22\x22\x22\x22b\x22" = .ok (.column first) := by decide +kernel
  have hsecond : parse first.sql = .ok (.column second) := by decide +kernel
  obtain ⟨parts, hparts, hiff⟩ := parse_sql_iff hfirst
  obtain rfl : [.quoted .double "a\x22\x22b"] = parts := ColumnRef.ofParts_injective hparts
  obtain ⟨parts', hparts', hiff'⟩ := parse_sql_iff hsecond
  obtain rfl : [.quoted .double "a\x22b"] = parts' := ColumnRef.ofParts_injective hparts'
  exact ⟨hfirst, hsecond, fun h ↦ absurd (hiff.1 h) (by decide), hiff'.2 (by decide)⟩

end Filter

end Funnel
