import Mathlib
import Funnel.Proofs.Ends

/-!
# Types of One Word

The first word of an operand is read as a type at first.  The words that a filter writes there are
no types of SQL, so that they are read as custom types; nothing is nested in those, and no literal
of a custom type is found.
-/

namespace Funnel.Sql.Grammar

open Rule

variable {α β : Type}

/-! ## Rules without nesting -/

/-- A rule that leaves a part of its tokens and never finds them nested too deep. -/
def Shallow (r : Rule α) : Prop :=
  ∀ ts, match r ts with
    | .ok (_, rest) => rest <:+ ts
    | .error e => e ≠ .tooDeep

namespace Shallow

theorem bind {r : Rule α} {f : α → Rule β} (hr : Shallow r) (hf : ∀ a, Shallow (f a)) :
    Shallow (r >>= f) := by
  intro ts
  have h := hr ts
  cases hrun : r ts with
  | error e =>
    rw [bind_error hrun]
    simpa only [hrun] using h
  | ok found =>
    obtain ⟨a, rest⟩ := found
    simp only [hrun] at h
    rw [bind_ok hrun]
    have h' := hf a rest
    cases hrun' : f a rest with
    | error e => simpa only [hrun'] using h'
    | ok found =>
      simp only [hrun'] at h'
      exact h'.trans h

theorem pure (a : α) : Shallow (Pure.pure a : Rule α) := fun ts ↦ List.suffix_refl ts

theorem expected (what : Expectation) : Shallow (Rule.expected what : Rule α) := fun ts ↦ by
  simp [Rule.expected]

theorem peek : Shallow peek := fun ts ↦ List.suffix_refl ts

theorem size : Shallow size := fun ts ↦ List.suffix_refl ts

theorem skip : Shallow skip := fun ts ↦ List.tail_suffix ts

theorem ite {r s : Rule α} (p : Prop) [Decidable p] (hr : Shallow r) (hs : Shallow s) :
    Shallow (if p then r else s) := by
  split <;> assumption

theorem symbol? (s : Symbol) : Shallow (symbol? s) :=
  .bind (.bind .peek fun _ ↦ .pure _) fun _ ↦ .ite _ (.bind .skip fun _ ↦ .pure _) (.pure _)

theorem identifier : Shallow identifier :=
  .bind .peek fun t ↦ by
    split
    · exact .bind .skip fun _ ↦ .pure _
    · exact .bind .skip fun _ ↦ .pure _
    · exact .expected _

theorem separatedIn {separator : Rule Bool} {item : Rule α} (hs : Shallow separator)
    (hi : Shallow item) (n : Nat) : Shallow (separatedIn separator item n) := by
  induction n with
  | zero => exact .bind hi fun _ ↦ .pure _
  | succ n ih => exact .bind hi fun _ ↦ .bind hs fun _ ↦ .ite _ (.bind ih fun _ ↦ .pure _) (.pure _)

theorem typeModifiersIn (n : Nat) : Shallow (typeModifiersIn n) := by
  induction n with
  | zero => exact .expected _
  | succ n ih =>
    refine .bind .peek fun t ↦ ?_
    split
    · exact .bind .skip fun _ ↦ .bind ih fun _ ↦ .pure _
    · exact .bind .skip fun _ ↦ .bind ih fun _ ↦ .pure _
    · exact .bind .skip fun _ ↦ .bind ih fun _ ↦ .pure _
    · exact .bind .skip fun _ ↦ ih
    · exact .bind .skip fun _ ↦ .pure _
    · exact .expected _

theorem customType : Shallow customType := by
  unfold Grammar.customType
  refine .bind (.bind .size fun _ ↦ .separatedIn (.symbol? _) .identifier _) fun name ↦ ?_
  exact .bind (.symbol? _) fun _ ↦
    .ite _ (.bind .size fun _ ↦ .bind (.typeModifiersIn _) fun _ ↦ .pure _) (.pure _)

end Shallow

/-! ## Custom types -/

theorem exists_custom {ts rest : List Lexeme} {type : DataType}
    (h : customType ts = .ok (type, rest)) : ∃ name modifiers, type = .custom name modifiers := by
  unfold customType at h
  obtain ⟨name, ts', -, h⟩ := of_bind_ok h
  obtain ⟨paren, ts'', -, h⟩ := of_bind_ok h
  cases paren with
  | false => cases h; exact ⟨_, _, rfl⟩
  | true =>
    obtain ⟨fuel, ts''', -, h⟩ := of_bind_ok h
    obtain ⟨modifiers, _, -, h⟩ := of_bind_ok h
    cases h
    exact ⟨_, _, rfl⟩

theorem arraySuffixIn_eq {ts : List Lexeme} (h : ∀ l ∈ ts.head?, l.token ≠ .symbol .lbracket)
    (fuel : Nat) (type : DataType) : arraySuffixIn fuel type ts = .ok (type, ts) := by
  cases fuel with
  | zero => rfl
  | succ fuel =>
    rw [arraySuffixIn, bind_ok (symbol?_eq_false h)]
    rfl

/-- The keywords that operands of a filter begin with. -/
def openingKeys : List Keyword := ["TRUE", "FALSE", "NULL", "CAST", "NOT"]

/-- The keyword begins no type of SQL, so that a type which it begins is a custom one. -/
def NamesNoType (k : Keyword) : Prop :=
  ∀ n inner start, keywordType n inner start k = (do return (← customType, false))

theorem namesNoType_of_mem_openingKeys {k : Keyword} (hk : k ∈ openingKeys) : NamesNoType k := by
  intro n inner start
  simp only [openingKeys, List.mem_cons, List.not_mem_nil, or_false] at hk
  rcases hk with rfl | rfl | rfl | rfl | rfl <;> rfl

/-- A type whose first word is no type of SQL is a custom one. -/
theorem dataType_eq_customType (n : Nested) (name : Ident) {key : Option Keyword} (place : Nat)
    {ts : List Lexeme} (hkey : ∀ k ∈ key, NamesNoType k)
    (hplain : ∀ l ∈ ts, l.token ≠ .symbol .lbracket) :
    dataType n (⟨.word name key, place⟩ :: ts) = customType (⟨.word name key, place⟩ :: ts) := by
  generalize hls : (⟨.word name key, place⟩ :: ts : List Lexeme) = ls
  have hstart : ∀ d, dataTypeIn n (d + 1) ls =
      ((do return (← customType, false)) >>= fun found ↦ do
        return (← arraySuffixIn (← size) found.1, found.2) : Rule (DataType × Bool)) ls := by
    intro d
    subst hls
    cases key with
    | none => rfl
    | some k =>
      rw [← hkey k rfl n (dataTypeIn n d) (some place)]
      rfl
  have hplain' : ∀ l ∈ ls, l.token ≠ .symbol .lbracket := by
    subst hls
    simpa using hplain
  have hrun : dataType n ls = balanced (dataTypeIn n (ls.length + 1)) ls := rfl
  rw [hrun, balanced]
  cases hcustom : customType ls with
  | error e =>
    rw [bind_error]
    rw [hstart, bind_error]
    rw [bind_error hcustom]
  | ok found =>
    obtain ⟨type, rest⟩ := found
    have hsuffix : rest <:+ ls := by simpa only [hcustom] using Shallow.customType ls
    have hrest : ∀ l ∈ rest.head?, l.token ≠ .symbol .lbracket := fun l hl ↦
      hplain' l (hsuffix.subset (List.mem_of_mem_head? hl))
    have hword : (do return (← customType, false) : Rule (DataType × Bool)) ls =
        .ok ((type, false), rest) := by
      rw [bind_ok hcustom]
      rfl
    have hin : dataTypeIn n (ls.length + 1) ls = .ok ((type, false), rest) := by
      rw [hstart, bind_ok hword, bind_ok rfl, bind_ok (arraySuffixIn_eq hrest rest.length type)]
      rfl
    rw [bind_ok hin]
    rfl

/-- The name of a custom type opens no literal of the type. -/
theorem typedLiteral_eq_error (n : Nested) (name : Ident) {key : Option Keyword} (place : Nat)
    {ts : List Lexeme} (hkey : ∀ k ∈ key, NamesNoType k)
    (hplain : ∀ l ∈ ts, l.token ≠ .symbol .lbracket) :
    ∃ e, typedLiteral n (⟨.word name key, place⟩ :: ts) = .error e ∧ e ≠ .tooDeep := by
  have htype := dataType_eq_customType n name place hkey hplain
  rw [typedLiteral]
  cases hcustom : customType (⟨.word name key, place⟩ :: ts) with
  | error e =>
    refine ⟨e, by rw [bind_error (htype.trans hcustom)], ?_⟩
    simpa only [hcustom] using Shallow.customType (⟨.word name key, place⟩ :: ts)
  | ok found =>
    obtain ⟨type, rest⟩ := found
    obtain ⟨parts, modifiers, rfl⟩ := exists_custom hcustom
    exact ⟨.customTypeLiteral, by rw [bind_ok (htype.trans hcustom)]; rfl, by simp⟩

/-- No literal of a type begins with a token that begins no type of SQL. -/
theorem attempt_typedLiteral (n : Nested) {t : Token} {place : Nat} {ts : List Lexeme}
    (hkey : ∀ k ∈ t.key?, k ∈ openingKeys) (hplain : ∀ l ∈ ts, l.token ≠ .symbol .lbracket) :
    attempt (typedLiteral n) (⟨t, place⟩ :: ts) = .ok (none, ⟨t, place⟩ :: ts) := by
  have herror : ∃ e, typedLiteral n (⟨t, place⟩ :: ts) = .error e ∧ e ≠ .tooDeep := by
    cases t with
    | word name key =>
      exact typedLiteral_eq_error n name place
        (fun k hk ↦ namesNoType_of_mem_openingKeys (hkey k hk)) hplain
    | _ => exact ⟨_, rfl, by simp⟩
  obtain ⟨e, he, hne⟩ := herror
  exact attempt_eq_none he hne

/-! ## Types that are read back -/

/-- A keyword that is a type by itself is the same type in front of a closing parenthesis. -/
theorem keywordType_of_alone {n : Nested} {inner : Rule (DataType × Bool)} {start : Option Nat}
    {k : Keyword} {name : Ident} {place : Nat} {found : DataType × Bool} {ls : List Lexeme}
    (h : keywordType n inner start k [⟨.word name (some k), place⟩] = .ok (found, ls)) :
    ls = [] ∧ ∀ n' inner' start' place' closing rest,
      keywordType n' inner' start' k
          (⟨.word name (some k), place'⟩ :: ⟨.symbol .rparen, closing⟩ :: rest) =
        .ok (found, ⟨.symbol .rparen, closing⟩ :: rest) := by
  revert h
  unfold keywordType
  cases hplain : plainTypes.lookup k with
  | some spelling =>
    intro h
    cases h
    exact ⟨rfl, fun _ _ _ _ _ _ ↦ rfl⟩
  | none =>
    by_cases hsized : sizedTypes.contains k = true
    · simp only [hsized, if_true]
      intro h
      cases h
      exact ⟨rfl, fun _ _ _ _ _ _ ↦ rfl⟩
    by_cases hinteger : integerTypes.contains k = true
    · simp only [hsized, hinteger, Bool.false_eq_true, if_false, if_true]
      intro h
      cases h
      exact ⟨rfl, fun _ _ _ _ _ _ ↦ rfl⟩
    by_cases hdecimal : decimalTypes.contains k = true
    · simp only [hsized, hinteger, hdecimal, Bool.false_eq_true, if_false, if_true]
      intro h
      cases h
      exact ⟨rfl, fun _ _ _ _ _ _ ↦ rfl⟩
    simp only [hsized, hinteger, hdecimal, Bool.false_eq_true, if_false]
    split <;> intro h <;> cases h <;> exact ⟨rfl, fun _ _ _ _ _ _ ↦ rfl⟩

theorem dataTypeIn_of_alone {n : Nested} {depth : Nat} {name : Ident} {key : Option Keyword}
    {place : Nat} {found : DataType × Bool} {ls : List Lexeme}
    (h : dataTypeIn n (depth + 1) [⟨.word name key, place⟩] = .ok (found, ls)) :
    ls = [] ∧ ∀ n' depth' place' closing rest,
      dataTypeIn n' (depth' + 1)
          (⟨.word name key, place'⟩ :: ⟨.symbol .rparen, closing⟩ :: rest) =
        .ok (found, ⟨.symbol .rparen, closing⟩ :: rest) := by
  cases key with
  | none =>
    cases h
    exact ⟨rfl, fun _ _ _ _ _ ↦ rfl⟩
  | some k =>
    obtain ⟨start, _, hstart, h⟩ := of_bind_ok h
    cases hstart
    obtain ⟨⟨type, taken⟩, ls', htype, h⟩ := of_bind_ok h
    obtain ⟨rfl, hword⟩ := keywordType_of_alone htype
    cases h
    exact ⟨rfl, fun n' depth' place' closing rest ↦
      (bind_ok (hword n' (dataTypeIn n' depth') (some place') place' closing rest)).trans rfl⟩

/-- A word that is a type by itself, and is written as that type, is read back. -/
theorem readsBack_of_alone {n : Nested} {w : String} {place : Nat} {type : DataType}
    (h : dataType n [⟨.ofWord w, place⟩] = .ok (type, [])) (hsql : type.sql = w) :
    Expr.ReadsBack type := by
  intro n' place' rest hrest
  obtain ⟨⟨t, closing⟩, rest, rfl⟩ : ∃ l ls, rest = l :: ls := by
    cases rest with
    | nil => simp at hrest
    | cons l ls => exact ⟨l, ls, rfl⟩
  obtain rfl : t = .symbol .rparen := by simpa using hrest
  rw [hsql]
  obtain ⟨⟨type', taken⟩, ls, hin, h⟩ := of_bind_ok (show (dataTypeIn n 2 >>= _) _ = _ from h)
  obtain ⟨rfl, hword⟩ := dataTypeIn_of_alone hin
  have hrun := hword n' (rest.length + 2) place' closing rest
  cases taken with
  | true => cases h
  | false =>
    cases h
    exact (bind_ok hrun).trans rfl

end Funnel.Sql.Grammar
