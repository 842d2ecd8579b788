import Mathlib
import Funnel.Proofs.NameTokens
import Funnel.Proofs.Spelling

/-!
# Strings in Front of Other Text

A string that is written into a statement cannot change the statement around it.  Its text is one
token, whatever quotes, backslashes or line ends the string has, and the text behind it falls into
the tokens that it has when it stands alone (`lex_string_append`).  Only a quote right behind the
string would belong to it (`token_eq_string_iff`).  The text of a whole filter has the tokens of its
reading in front of any text that a filter can stand in front of (`lex_render_append`).
-/

namespace Funnel.Filter

open Sql (Lexeme Token)
open Sql.Lexer (lex lex_cons of_lex_cons)
open Text.Quoted (encode)

/-- The tokens behind a string do not depend on it. -/
theorem lex_encode_append (s : String) {r : List Char} (hr : r.head? ≠ some '\x27') :
    lex ('\x27' :: (encode '\x27' s.toList ++ '\x27' :: r)) = (lex r).map
      (⟨.string .plain s, (encode '\x27' s.toList ++ '\x27' :: r).length + 1⟩ :: ·) := by
  rw [lex_cons, Sql.Lexer.scan_string s hr]
  rfl

/-- A string is read back from its text, as a filter by itself and in front of a text that does not
begin with a quote. -/
theorem lex_string_append (s r : String) (hr : r.toList.head? ≠ some '\x27') :
    lex ((Value.string s).sql ++ r).toList = (lex r.toList).map
        (⟨.string .plain s, ((Value.string s).sql ++ r).length⟩ :: ·) ∧
      parse (value (.string s)).render = .ok (value (.string s)) := by
  constructor
  · rw [← String.length_toList, String.toList_append, Value.toList_string_append]
    exact lex_encode_append s hr
  · have hdepth : (value (.string s)).reading.depth < Sql.Grammar.maxDepth := by
      simp [reading, Value.reading, Sql.Expr.depth, Sql.Grammar.maxDepth]
    exact parse_render (.string s) hdepth

/-- A string of quotes, a comment sign, a backslash, a line end and the character of code zero, in
front of a text with strings of its own. -/
theorem lex_comment_in_string :
    let s := "'; --\\\n\x00''"
    let r := " = c OR '' = 'x'"
    let ls : List Lexeme := [⟨.symbol .eq, 15⟩, ⟨.ofWord "c", 13⟩, ⟨.ofWord "OR", 11⟩,
      ⟨.string .plain "", 8⟩, ⟨.symbol .eq, 5⟩, ⟨.string .plain "x", 3⟩]
    r.toList.head? ≠ some '\x27' ∧ (Value.string s).sql = "'''; --\\\n\x00'''''" ∧
      lex r.toList = .ok ls ∧
      lex ((Value.string s).sql ++ r).toList = .ok (⟨.string .plain s, 31⟩ :: ls) ∧
      parse (value (.string s)).render = .ok (value (.string s)) := by
  intro s r ls
  have hr : r.toList.head? ≠ some '\x27' := by decide
  have hrest : lex r.toList = .ok ls := by decide +kernel
  have hlength : ((Value.string s).sql ++ r).length = 31 := by decide +kernel
  obtain ⟨hlex, hparse⟩ := lex_string_append s r hr
  rw [hrest, hlength] at hlex
  exact ⟨hr, by decide +kernel, hrest, hlex, hparse⟩

/-- What a quote opens is read to the quote that closes it. -/
theorem exists_read_of_lex {cs : List Char} {l : Lexeme} {ls : List Lexeme}
    (h : lex ('\x27' :: cs) = .ok (l :: ls)) :
    ∃ t rest, Text.Quoted.read '\x27' cs = some (t, rest) ∧
      l.token = .string .plain (String.ofList t) := by
  obtain ⟨found, rest, ls', hscan, -, htokens⟩ := of_lex_cons h
  obtain ⟨t, hread, rfl⟩ := Sql.Ident.exists_read_of_scan (q := .single) hscan
  exact ⟨t, rest, hread, (List.cons.inj htokens).1⟩

/-- Where a text behind a string can be split, the string is a token of its own exactly if no quote
stands right behind it. -/
theorem token_eq_string_iff {s r : String} {l : Lexeme} {ls : List Lexeme}
    (h : lex ((Value.string s).sql ++ r).toList = .ok (l :: ls)) :
    l.token = .string .plain s ↔ r.toList.head? ≠ some '\x27' := by
  rw [String.toList_append, Value.toList_string_append] at h
  constructor
  · intro htoken hquote
    obtain ⟨cs, hcs⟩ : ∃ cs, r.toList = '\x27' :: cs := List.head?_eq_some_iff.1 hquote
    obtain ⟨t, rest, hread, hlonger⟩ := exists_read_of_lex h
    obtain rfl : t = s.toList := by
      rw [htoken, Token.string.injEq] at hlonger
      rw [hlonger.2, String.toList_ofList]
    -- The reader goes on behind the two quotes, so that it finds more than the string.
    have hpair : Text.Quoted.read '\x27' ('\x27' :: '\x27' :: cs) =
        (Text.Quoted.read '\x27' cs).map fun p ↦ ('\x27' :: p.1, p.2) := by
      rw [Text.Quoted.read.eq_def]
      simp
    rw [hcs, Text.Quoted.read_encode_append, hpair] at hread
    simp at hread
  · intro hr
    rw [lex_encode_append s hr] at h
    cases hrest : lex r.toList with
    | error e =>
      rw [hrest] at h
      cases h
    | ok us =>
      rw [hrest] at h
      cases h
      rfl

/-- The tokens behind a filter do not depend on it. -/
theorem lex_render_append {f : Filter} (hf : Writable f) {r : String} (hr : Breaks r.toList) :
    ∃ ls, ls.map Lexeme.token = f.reading.tokens ∧
      lex (f.render ++ r).toList = (lex r.toList).map (ls ++ ·) := by
  rw [String.toList_append]
  exact Sql.Lexer.lexes_iff.1 ((spelt_render hf).lexes r.toList hr)

end Funnel.Filter
