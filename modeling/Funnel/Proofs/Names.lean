import Mathlib
import Funnel.Filter.Basic

/-!
# Names Behind Their Texts

A dotted name can be told from its texts.  A word ends at the next period, and a quoted part ends
at its closing quote; but not every quote inside a quoted part is doubled when the part is written,
so what is written may belong to two names.  It belongs to one when the text without the quotes
stands beside it (`ofParts_injective`), or when no part holds a quote of its own
(`dottedSql_injOn`).
-/

namespace Funnel

namespace Sql

open Lexer (isWordStart isWordPart leadLength isBare)

theorem intercalate_cons_eq_flatMap {α : Type*} (u : α) (us : List α) (vss : List (List α)) :
    [u].intercalate (us :: vss) = us ++ vss.flatMap (u :: ·) := by
  induction vss generalizing us with
  | nil => simp
  | cons vs vss ih => rw [List.intercalate_cons_cons, ih]; simp

/-! ## Words -/

namespace Lexer

/-- What stands behind a part of a dotted name: nothing, or a period. -/
def EndsPart (rest : List Char) : Prop := ∀ c ∈ rest.head?, c = '.'

/-- The word that a text begins with. -/
def front (cs : List Char) : List Char :=
  cs.take (leadLength cs) ++ (cs.drop (leadLength cs)).takeWhile isWordPart

theorem leadLength_append {cs : List Char} (hnil : cs ≠ []) (h : leadLength cs ≤ cs.length)
    (rest : List Char) : leadLength (cs ++ rest) = leadLength cs := by
  match cs with
  | [] => exact absurd rfl hnil
  | [c] =>
    have hat : c ≠ '@' := by rintro rfl; simp [leadLength] at h
    have hsharp : c ≠ '#' := by rintro rfl; simp [leadLength] at h
    simp [leadLength, hat, hsharp]
  | c :: d :: cs =>
    by_cases hat : c = '@'
    · subst hat
      by_cases hd : d = '@'
      · subst hd
        rfl
      · simp [leadLength, hd]
    · by_cases hsharp : c = '#'
      · subst hsharp
        rfl
      · simp [leadLength, hat, hsharp]

theorem head_of_isBare {cs : List Char} (h : isBare cs = true) :
    ∃ c ds, cs = c :: ds ∧ isWordStart c = true := by
  cases cs with
  | nil => simp [isBare] at h
  | cons c ds =>
    simp only [isBare, Bool.and_eq_true] at h
    exact ⟨c, ds, rfl, h.1.1⟩

/-- A word is taken off the front of a text to its end. -/
theorem front_append {cs rest : List Char} (h : isBare cs = true) (hrest : EndsPart rest) :
    front (cs ++ rest) = cs := by
  obtain ⟨c, ds, rfl, -⟩ := head_of_isBare h
  simp only [isBare, Bool.and_eq_true, decide_eq_true_eq] at h
  obtain ⟨⟨-, hlead⟩, hparts⟩ := h
  have hend : ∀ d ∈ rest.head?, isWordPart d = false := by
    intro d hd
    obtain rfl : d = '.' := hrest d hd
    decide
  have hpart : ∀ d ∈ (c :: ds).drop (leadLength (c :: ds)), isWordPart d = true :=
    List.all_eq_true.1 hparts
  calc front (c :: ds ++ rest)
      = (c :: ds).take (leadLength (c :: ds)) ++
          ((c :: ds).drop (leadLength (c :: ds)) ++ rest).takeWhile isWordPart := by
        rw [front, leadLength_append (List.cons_ne_nil c ds) hlead,
          List.take_append_of_le_length hlead, List.drop_append_of_le_length hlead]
    _ = (c :: ds).take (leadLength (c :: ds)) ++ (c :: ds).drop (leadLength (c :: ds)) := by
        rw [takeWhile_run hpart hend]
    _ = c :: ds := List.take_append_drop _ _

/-- Two words with an end behind them are the same word. -/
theorem word_cancel {cs ds r s : List Char} (hc : isBare cs = true) (hd : isBare ds = true)
    (hr : EndsPart r) (hs : EndsPart s) (h : cs ++ r = ds ++ s) : cs = ds ∧ r = s := by
  have hfront : cs = ds :=
    calc cs = front (cs ++ r) := (front_append hc hr).symm
      _ = front (ds ++ s) := by rw [h]
      _ = ds := front_append hd hs
  subst hfront
  exact ⟨rfl, List.append_cancel_left h⟩

end Lexer

/-! ## Parts of names -/

/-- The quotes that a character opens. -/
def NameQuote.ofChar? : Char → Option NameQuote
  | '\x22' => some double
  | '\x60' => some back
  | '\x27' => some single
  | _ => none

theorem NameQuote.ofChar?_char (q : NameQuote) : ofChar? q.char = some q := by
  cases q <;> rfl

theorem NameQuote.ofChar?_of_isWordStart {c : Char} (h : isWordStart c = true) :
    ofChar? c = none := by
  unfold ofChar?
  split <;> first
    | exact absurd h (by decide)
    | rfl

theorem NameQuote.char_ne_period (q : NameQuote) : '.' ≠ q.char := by
  cases q <;> decide

namespace Ident

open Lexer (EndsPart)
open Text.Quoted (respell respell_append_cons respell_of_not_mem)

theorem sql_of_bare {i : Ident} (h : i.quote = none) : i.sql = i.text := by
  rw [sql, h]

theorem sql_of_quoted {i : Ident} {q : NameQuote} (h : i.quote = some q) :
    i.sql.toList = q.char :: (respell q.char false i.text.toList ++ [q.char]) := by
  rw [sql, h, String.toList_ofList]
  rfl

/-- The first character of a part says whether it has quotes, and which. -/
theorem toList_sql_head (i : Ident) :
    ∃ c cs, i.sql.toList = c :: cs ∧ NameQuote.ofChar? c = i.quote := by
  cases hi : i.quote with
  | none =>
    obtain ⟨c, cs, hcs, hc⟩ := Lexer.head_of_isBare (i.bare hi)
    exact ⟨c, cs, by rw [sql_of_bare hi, hcs], NameQuote.ofChar?_of_isWordStart hc⟩
  | some q => exact ⟨q.char, _, sql_of_quoted hi, q.ofChar?_char⟩

theorem quote_eq {i j : Ident} {r s : List Char} (h : i.sql.toList ++ r = j.sql.toList ++ s) :
    i.quote = j.quote := by
  obtain ⟨c, cs, hi, hci⟩ := toList_sql_head i
  obtain ⟨d, ds, hj, hdj⟩ := toList_sql_head j
  rw [hi, hj] at h
  obtain rfl : c = d := (List.cons.inj h).1
  rw [← hci, ← hdj]

/-- Two parts with what follows them are told apart as soon as their texts are when both have
quotes. -/
theorem cancel {i j : Ident} {r s : List Char} (hr : EndsPart r) (hs : EndsPart s)
    (hsql : i.sql.toList ++ r = j.sql.toList ++ s)
    (htext : ∀ q ∈ i.quote, q ∈ j.quote → respell q.char false i.text.toList ++ q.char :: r =
      respell q.char false j.text.toList ++ q.char :: s → i.text.toList = j.text.toList) :
    i = j ∧ r = s := by
  have hquote := quote_eq hsql
  have heq : i.text.toList = j.text.toList := by
    cases hi : i.quote with
    | none =>
      have hj : j.quote = none := hquote ▸ hi
      rw [sql_of_bare hi, sql_of_bare hj] at hsql
      exact (Lexer.word_cancel (i.bare hi) (j.bare hj) hr hs hsql).1
    | some q =>
      have hj : j.quote = some q := hquote ▸ hi
      apply htext q hi hj
      rw [sql_of_quoted hi, sql_of_quoted hj] at hsql
      simpa using hsql
  obtain rfl : i = j := Ident.ext (String.toList_inj.1 heq) hquote
  exact ⟨rfl, List.append_cancel_left hsql⟩

/-- A quoted part that is longer than another one is written differently: a period of its text
would stand where the closing quote of the other part does. -/
theorem eq_nil_of_respell {q : Char} (hq : '.' ≠ q) {t d n r s : List Char} (hn : EndsPart (d ++ n))
    (h : respell q false t ++ q :: r = respell q false (t ++ d) ++ q :: s) : d = [] := by
  cases d with
  | nil => rfl
  | cons c d =>
    obtain rfl : c = '.' := hn c rfl
    rw [respell_append_cons hq, List.append_assoc] at h
    have hquote : q = '.' := (List.cons.inj (List.append_cancel_left h)).1
    exact absurd hquote.symm hq

/-- Two parts with the same texts, with and without quotes, in front of what follows them. -/
theorem cancel_texts {i j : Ident} {m n r s : List Char} (hm : EndsPart m) (hn : EndsPart n)
    (hr : EndsPart r) (hs : EndsPart s) (htext : i.text.toList ++ m = j.text.toList ++ n)
    (hsql : i.sql.toList ++ r = j.sql.toList ++ s) : i = j ∧ m = n ∧ r = s := by
  obtain ⟨rfl, hrest⟩ := cancel hr hs hsql fun q _ _ h ↦ by
    obtain ⟨d, hd, rfl⟩ | ⟨d, hd, rfl⟩ := List.append_eq_append_iff.1 htext
    · rw [hd] at h
      rw [hd, eq_nil_of_respell q.char_ne_period hm h, List.append_nil]
    · rw [hd] at h
      rw [hd, eq_nil_of_respell q.char_ne_period hn h.symm, List.append_nil]
  exact ⟨rfl, List.append_cancel_left htext, hrest⟩

/-- No quote of its own stands in a part. -/
def Unescaped (i : Ident) : Prop := ∀ q ∈ i.quote, q.char ∉ i.text.toList

instance : DecidablePred Unescaped := fun i ↦
  inferInstanceAs (Decidable (∀ q ∈ i.quote, q.char ∉ i.text.toList))

/-- Two parts without quotes of their own are told apart by what is written alone. -/
theorem Unescaped.cancel {i j : Ident} (hi : i.Unescaped) (hj : j.Unescaped) {r s : List Char}
    (hr : EndsPart r) (hs : EndsPart s) (hsql : i.sql.toList ++ r = j.sql.toList ++ s) :
    i = j ∧ r = s := by
  apply Ident.cancel hr hs hsql
  intro q hqi hqj h
  have htake {t : List Char} (ht : q.char ∉ t) (rest : List Char) :
      (t ++ q.char :: rest).takeWhile (· != q.char) = t := by
    have hpos : ∀ c ∈ t, (c != q.char) = true := fun c hc ↦
      bne_iff_ne.2 fun e ↦ ht (e ▸ hc)
    rw [List.takeWhile_append_of_pos hpos]
    simp
  rw [respell_of_not_mem (hi q hqi), respell_of_not_mem (hj q hqj)] at h
  calc i.text.toList
      = (i.text.toList ++ q.char :: r).takeWhile (· != q.char) := (htake (hi q hqi) r).symm
    _ = (j.text.toList ++ q.char :: s).takeWhile (· != q.char) := by rw [h]
    _ = j.text.toList := htake (hj q hqj) s

/-! ## Dotted names -/

/-- The parts of a dotted name behind its first part, each with its period. -/
def tail (f : Ident → String) (parts : List Ident) : List Char :=
  parts.flatMap fun i ↦ '.' :: (f i).toList

theorem endsPart_tail (f : Ident → String) (parts : List Ident) : EndsPart (tail f parts) := by
  cases parts with
  | nil => simp [EndsPart, tail]
  | cons i parts => simp [EndsPart, tail]

theorem toList_dotted (f : Ident → String) (i : Ident) (parts : List Ident) :
    (".".intercalate ((i :: parts).map f)).toList = (f i).toList ++ tail f parts := by
  rw [String.toList_intercalate, List.map_cons, List.map_cons, List.map_map]
  show ['.'].intercalate _ = _
  rw [intercalate_cons_eq_flatMap, tail, List.flatMap_map]
  rfl

theorem tails_injective {is js : List Ident} (htext : tail text is = tail text js)
    (hsql : tail sql is = tail sql js) : is = js := by
  induction is generalizing js with
  | nil =>
    cases js with
    | nil => rfl
    | cons j js => exact absurd htext (by simp [tail])
  | cons i is ih =>
    cases js with
    | nil => exact absurd htext (by simp [tail])
    | cons j js =>
      obtain ⟨rfl, ht, hs⟩ := cancel_texts (endsPart_tail text is) (endsPart_tail text js)
        (endsPart_tail sql is) (endsPart_tail sql js) (List.cons.inj htext).2 (List.cons.inj hsql).2
      rw [ih ht hs]

theorem tail_sql_injective {is js : List Ident} (hi : ∀ i ∈ is, i.Unescaped)
    (hj : ∀ j ∈ js, j.Unescaped) (h : tail sql is = tail sql js) : is = js := by
  induction is generalizing js with
  | nil =>
    cases js with
    | nil => rfl
    | cons j js => exact absurd h (by simp [tail])
  | cons i is ih =>
    cases js with
    | nil => exact absurd h (by simp [tail])
    | cons j js =>
      obtain ⟨hi, his⟩ := List.forall_mem_cons.1 hi
      obtain ⟨hj, hjs⟩ := List.forall_mem_cons.1 hj
      obtain ⟨rfl, hs⟩ := hi.cancel hj (endsPart_tail sql is) (endsPart_tail sql js)
        (List.cons.inj h).2
      rw [ih his hjs hs]

/-- A name with parts is not written as nothing. -/
theorem dottedSql_cons_ne_nil (i : Ident) (is : List Ident) :
    dottedSql (i :: is) ≠ dottedSql [] := by
  intro h
  have hnil : i.sql.toList ++ tail sql is = [] := by
    rw [← toList_dotted]
    exact congrArg String.toList h
  obtain ⟨c, cs, hc, -⟩ := toList_sql_head i
  rw [hc] at hnil
  exact List.cons_ne_nil c _ hnil

/-- Two names that are written the same way both have parts, or neither has. -/
theorem dottedSql_cases {is js : List Ident} (h : dottedSql is = dottedSql js) :
    (is = [] ∧ js = []) ∨ ∃ i is' j js', is = i :: is' ∧ js = j :: js' ∧
      i.sql.toList ++ tail sql is' = j.sql.toList ++ tail sql js' := by
  cases is with
  | nil =>
    cases js with
    | nil => exact .inl ⟨rfl, rfl⟩
    | cons j js => exact absurd h.symm (dottedSql_cons_ne_nil j js)
  | cons i is =>
    cases js with
    | nil => exact absurd h (dottedSql_cons_ne_nil i is)
    | cons j js =>
      have hsql := congrArg String.toList h
      rw [dottedSql, dottedSql, toList_dotted, toList_dotted] at hsql
      exact .inr ⟨i, is, j, js, rfl, rfl, hsql⟩

/-- What is written belongs to one name among those whose parts hold no quotes of their own. -/
theorem dottedSql_injOn : Set.InjOn dottedSql {name | ∀ part ∈ name, part.Unescaped} := by
  intro is his js hjs h
  obtain ⟨rfl, rfl⟩ | ⟨i, is, j, js, rfl, rfl, hsql⟩ := dottedSql_cases h
  · rfl
  · obtain ⟨hi, his'⟩ := List.forall_mem_cons.1 his
    obtain ⟨hj, hjs'⟩ := List.forall_mem_cons.1 hjs
    obtain ⟨rfl, htail⟩ := hi.cancel hj (endsPart_tail sql is) (endsPart_tail sql js) hsql
    rw [tail_sql_injective his' hjs' htail]

example : dottedSql [.quoted .double "a\x22b"] = dottedSql [.quoted .double "a\x22\x22b"] := by
  decide

end Ident

end Sql

open Sql.Ident in
/-- A reference to a column belongs to one name. -/
theorem ColumnRef.ofParts_injective : Function.Injective ColumnRef.ofParts := by
  intro is js h
  obtain ⟨hname, hwritten⟩ := ColumnRef.mk.inj h
  obtain ⟨rfl, rfl⟩ | ⟨i, is, j, js, rfl, rfl, hsql⟩ := dottedSql_cases hwritten
  · rfl
  · have htext := congrArg String.toList hname
    rw [dottedName, dottedName, toList_dotted, toList_dotted] at htext
    obtain ⟨rfl, htexts, hsqls⟩ := cancel_texts (endsPart_tail _ is) (endsPart_tail _ js)
      (endsPart_tail _ is) (endsPart_tail _ js) htext hsql
    rw [tails_injective htexts hsqls]

end Funnel
