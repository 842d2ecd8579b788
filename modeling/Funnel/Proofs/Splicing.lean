import Funnel.Plan.Select
import Funnel.Proofs.Qualifying

/-!
# Filters inside a Statement

The text of a filter is put between parentheses into the text of a query, without a look at what it
holds.  This is safe if a reader that goes through the text from left to right closes every quote
and every parenthesis that it opens, finds no closing one that it did not open, and comes upon no
comment (`Spliceable`).  A filter that is put together from such pieces has such a text, and so has
its rewriting if the names in front of its columns are such pieces too (`spliceable_rewrite`).
Nothing is asked of strings: their quotes are written twice.
-/

namespace Funnel

/-! ## Scanning -/

/-- Where the reader of a text stands: the number of open parentheses, the quote that is open, and
the character that was read last. -/
structure Scan where
  depth : Nat
  quote : Option Char
  last : Option Char
deriving DecidableEq, Repr

namespace Scan

/-- The quotes of strings and of names. -/
def isQuote (c : Char) : Bool := c == '\x27' || c == '\x22' || c == '\x60'

/-- Two characters that open a comment. -/
def OpensComment (last : Option Char) (c : Char) : Prop :=
  c = '-' ∧ last = some '-' ∨ c = '*' ∧ last = some '/'

instance (last : Option Char) (c : Char) : Decidable (OpensComment last c) :=
  inferInstanceAs (Decidable (_ ∨ _))

/-- Reads a character.  A quote that is written twice is read as the end of its quoted text and the
start of another one.  The reader stops at a comment and at a parenthesis that was not opened. -/
def step (s : Scan) (c : Char) : Option Scan :=
  match s.quote with
  | some q => some ⟨s.depth, if c = q then none else some q, some c⟩
  | none =>
    if OpensComment s.last c then none
    else if isQuote c then some ⟨s.depth, some c, some c⟩
    else if c = '(' then some ⟨s.depth + 1, none, some c⟩
    else if c = ')' then
      match s.depth with
      | 0 => none
      | depth + 1 => some ⟨depth, none, some c⟩
    else some ⟨s.depth, none, some c⟩

def run (s : Scan) (text : String) : Option Scan := text.toList.foldlM step s

theorem run_append (s : Scan) (a b : String) : s.run (a ++ b) = (s.run a).bind (run · b) := by
  rw [run, String.toList_append, List.foldlM_append]
  rfl

end Scan

/-- The text can stand inside another one: its quotes and parentheses are closed, none is closed
that was not opened, and there is no comment in it. -/
def Spliceable (text : String) : Prop :=
  ∃ last, Scan.run ⟨0, none, none⟩ text = some ⟨0, none, last⟩

namespace Scan

/-! ## Other starts -/

/-- More parentheses may be open around a text. -/
theorem step_add {s s' : Scan} {c : Char} (h : s.step c = some s') (n : Nat) :
    step ⟨s.depth + n, s.quote, s.last⟩ c = some ⟨s'.depth + n, s'.quote, s'.last⟩ := by
  obtain ⟨depth, quote, last⟩ := s
  cases quote with
  | some q =>
    obtain rfl := Option.some.inj h
    rfl
  | none =>
    by_cases hcomment : OpensComment last c
    · simp [step, hcomment] at h
    by_cases hclose : c = ')'
    · subst hclose
      cases depth with
      | zero => simp [step, hcomment, isQuote] at h
      | succ depth =>
        obtain rfl : ⟨depth, none, some ')'⟩ = s' := by simpa [step, hcomment, isQuote] using h
        simp [step, hcomment, isQuote, Nat.add_right_comm]
    · simp only [step, hcomment, hclose, if_false] at h ⊢
      split at h
      next hquote =>
        obtain rfl := Option.some.inj h
        rw [if_pos hquote]
      next hquote =>
        rw [if_neg hquote]
        split at h <;> obtain rfl := Option.some.inj h <;> simp [*, Nat.add_right_comm]

theorem run_add {s s' : Scan} {text : String} (h : s.run text = some s') (n : Nat) :
    run ⟨s.depth + n, s.quote, s.last⟩ text = some ⟨s'.depth + n, s'.quote, s'.last⟩ := by
  unfold run at h ⊢
  generalize text.toList = cs at h ⊢
  induction cs generalizing s with
  | nil =>
    obtain rfl := Option.some.inj h
    rfl
  | cons c cs ih =>
    rw [List.foldlM_cons] at h ⊢
    obtain ⟨next, hstep, hrest⟩ := Option.bind_eq_some_iff.1 h
    rw [step_add hstep]
    exact ih hrest

/-- The character in front of a text matters only if it opens a comment together with the first
one of the text. -/
theorem run_last {depth : Nat} {text : String} {s : Scan}
    (h : run ⟨depth, none, none⟩ text = some s) {last : Option Char}
    (hfirst : ∀ c, text.toList.head? = some c → ¬ OpensComment last c) :
    ∃ last', run ⟨depth, none, last⟩ text = some ⟨s.depth, s.quote, last'⟩ := by
  unfold run at h ⊢
  cases htext : text.toList with
  | nil =>
    rw [htext] at h
    obtain rfl := Option.some.inj h
    exact ⟨last, rfl⟩
  | cons c cs =>
    have hnone : ¬ OpensComment none c := by simp [OpensComment]
    have hstep : step ⟨depth, none, last⟩ c = step ⟨depth, none, none⟩ c := by
      simp only [step]
      rw [if_neg hnone, if_neg (hfirst c (by rw [htext]; rfl))]
    rw [htext, List.foldlM_cons, ← hstep] at h
    exact ⟨s.last, by rw [List.foldlM_cons]; exact h⟩

/-! ## Passing a text -/

/-- What the character in front of a text may be: anything, no first half of a comment, or no
first half of one that a star goes on with. -/
def Any (_ : Option Char) : Prop := True

def Harmless (last : Option Char) : Prop := last ≠ some '-' ∧ last ≠ some '/'

def NoSlash (last : Option Char) : Prop := last ≠ some '/'

/-- The reader comes through the text with the parentheses and quotes as they were. -/
def Passes (Before After : Option Char → Prop) (text : String) : Prop :=
  ∀ depth last, Before last → ∃ last', After last' ∧
    run ⟨depth, none, last⟩ text = some ⟨depth, none, last'⟩

section Passes

variable {P Q R : Option Char → Prop} {a b text : String}

theorem Passes.append (ha : Passes P Q a) (hb : Passes Q R b) : Passes P R (a ++ b) := by
  intro depth last hlast
  obtain ⟨middle, hmiddle, hrun⟩ := ha depth last hlast
  obtain ⟨last', hlast', hrun'⟩ := hb depth middle hmiddle
  exact ⟨last', hlast', by rw [run_append, hrun, Option.bind_some, hrun']⟩

theorem Passes.mono (h : Passes P Q text) {P' Q' : Option Char → Prop} (hP : ∀ l, P' l → P l)
    (hQ : ∀ l, Q l → Q' l) : Passes P' Q' text := by
  intro depth last hlast
  obtain ⟨last', hlast', hrun⟩ := h depth last (hP last hlast)
  exact ⟨last', hQ last' hlast', hrun⟩

theorem Passes.spliceable (h : Passes Harmless Q text) : Spliceable text := by
  obtain ⟨last, -, hrun⟩ := h 0 none ⟨by simp, by simp⟩
  exact ⟨last, hrun⟩

theorem passes_of_spliceable (h : Spliceable text)
    (hfirst : ∀ last, P last → ∀ c, text.toList.head? = some c → ¬ OpensComment last c) :
    Passes P Any text := by
  intro depth last hlast
  obtain ⟨last', hrun⟩ := h
  have hdeep := run_add hrun depth
  rw [Nat.zero_add] at hdeep
  obtain ⟨last'', hrun'⟩ := run_last hdeep (hfirst last hlast)
  exact ⟨last'', trivial, hrun'⟩

end Passes

end Scan

open Scan

theorem Spliceable.passes {text : String} (h : Spliceable text) : Passes Harmless Any text := by
  refine passes_of_spliceable h fun last hlast c _ hcomment ↦ ?_
  rcases hcomment with ⟨-, hminus⟩ | ⟨-, hslash⟩
  · exact hlast.1 hminus
  · exact hlast.2 hslash

/-- Behind a sign a text with no sign of its own is read as it is. -/
theorem Spliceable.passes_of_not_startsWithSign {text : String} (h : Spliceable text)
    (hsign : startsWithSign text = false) : Passes NoSlash Any text := by
  refine passes_of_spliceable h fun last hlast c hc hcomment ↦ ?_
  rcases hcomment with ⟨rfl, -⟩ | ⟨-, hslash⟩
  · obtain ⟨cs, hcs⟩ := List.head?_eq_some_iff.1 hc
    simp [startsWithSign, hcs] at hsign
  · exact hlast hslash

/-- A text in parentheses is read past from wherever the reader stands. -/
theorem Spliceable.run_parens {text : String} (h : Spliceable text) (depth : Nat)
    (last : Option Char) :
    Scan.run ⟨depth, none, last⟩ ("(" ++ text ++ ")") = some ⟨depth, none, some ')'⟩ := by
  have hopen : Scan.run ⟨depth, none, last⟩ "(" = some ⟨depth + 1, none, some '('⟩ := rfl
  obtain ⟨last', -, hrun⟩ := h.passes (depth + 1) (some '(') ⟨by decide, by decide⟩
  have hclose : Scan.run ⟨depth + 1, none, last'⟩ ")" = some ⟨depth, none, some ')'⟩ := rfl
  rw [run_append, run_append, hopen, Option.bind_some, hrun, Option.bind_some, hclose]

theorem Spliceable.passes_parens {text : String} (h : Spliceable text) :
    Passes Any Harmless ("(" ++ text ++ ")") :=
  fun depth last _ ↦ ⟨some ')', ⟨by decide, by decide⟩, h.run_parens depth last⟩

/-- Whatever stands in front of a text in parentheses, they hold the two apart. -/
theorem Spliceable.append_parens {P Q : Option Char → Prop} {front text : String}
    (h : Spliceable text) (hfront : Passes P Q front) :
    Passes P Harmless (front ++ "(" ++ text ++ ")") := by
  have hassoc : front ++ "(" ++ text ++ ")" = front ++ ("(" ++ text ++ ")") := by
    simp only [String.append_assoc]
  rw [hassoc]
  exact hfront.append (h.passes_parens.mono (fun _ _ ↦ trivial) fun _ hlast ↦ hlast)

/-! ## Pieces of a text -/

namespace Scan

/-- A character that the reader goes past. -/
def isCalm (c : Char) : Bool :=
  !isQuote c && c != '(' && c != ')' && c != '-' && c != '*' && c != '/'

theorem step_of_isCalm {c : Char} (h : isCalm c = true) (depth : Nat) (last : Option Char) :
    step ⟨depth, none, last⟩ c = some ⟨depth, none, some c⟩ := by
  simp only [isCalm, Bool.and_eq_true, Bool.not_eq_true', bne_iff_ne] at h
  obtain ⟨⟨⟨⟨⟨hquote, hopen⟩, hclose⟩, hminus⟩, hstar⟩, -⟩ := h
  simp [step, OpensComment, hquote, hopen, hclose, hminus, hstar]

theorem harmless_of_isCalm {c : Char} (h : isCalm c = true) : Harmless (some c) := by
  simp only [isCalm, Bool.and_eq_true, bne_iff_ne] at h
  exact ⟨fun hc ↦ h.1.1.2 (Option.some.inj hc), fun hc ↦ h.2 (Option.some.inj hc)⟩

theorem passes_of_all_isCalm {text : String} (h : text.toList.all isCalm = true) :
    Passes Harmless Harmless text := by
  intro depth last hlast
  unfold run
  generalize text.toList = cs at h
  induction cs generalizing last with
  | nil => exact ⟨last, hlast, rfl⟩
  | cons c cs ih =>
    rw [List.all_cons, Bool.and_eq_true] at h
    obtain ⟨hc, hcs⟩ := h
    rw [List.foldlM_cons, step_of_isCalm hc]
    exact ih (some c) (harmless_of_isCalm hc) hcs

/-- A text of such characters separates what stands around it. -/
theorem passes_of_ne_nil {text : String} (h : text.toList.all isCalm = true)
    (hne : text.toList ≠ []) : Passes Any Harmless text := by
  intro depth last _
  obtain ⟨c, cs, hcs⟩ := List.exists_cons_of_ne_nil hne
  have hfirst : isCalm c = true := List.all_eq_true.1 h c (by rw [hcs]; exact List.mem_cons_self)
  obtain ⟨last', hlast', hrun⟩ := passes_of_all_isCalm h depth none ⟨by decide, by decide⟩
  refine ⟨last', hlast', ?_⟩
  unfold run at hrun ⊢
  rw [hcs, List.foldlM_cons, step_of_isCalm hfirst] at hrun ⊢
  exact hrun

/-- Between its quotes a text is skipped. -/
theorem foldlM_encode {q : Char} (hq : isQuote q = true) (cs : List Char) (depth : Nat)
    (last : Option Char) :
    (Text.Quoted.encode q cs ++ [q]).foldlM step ⟨depth, some q, last⟩ =
      some ⟨depth, none, some q⟩ := by
  induction cs generalizing last with
  | nil => simp [Text.Quoted.encode, step]
  | cons c cs ih =>
    by_cases hc : c = q
    · -- The pair of quotes closes the quoted text and opens it again.
      have hopen : step ⟨depth, none, some q⟩ q = some ⟨depth, some q, some q⟩ := by
        have hcomment : ¬ OpensComment (some q) q := by
          rintro (⟨rfl, -⟩ | ⟨rfl, -⟩) <;> exact absurd hq (by decide)
        simp [step, hcomment, hq]
      have hclose : step ⟨depth, some q, last⟩ q = some ⟨depth, none, some q⟩ := by simp [step]
      rw [Text.Quoted.encode, if_pos hc, List.cons_append, List.cons_append, List.foldlM_cons,
        hclose]
      change List.foldlM step ⟨depth, none, some q⟩ (q :: (Text.Quoted.encode q cs ++ [q])) = _
      rw [List.foldlM_cons, hopen]
      exact ih (some q)
    · have hskip : step ⟨depth, some q, last⟩ c = some ⟨depth, some q, some c⟩ := by
        simp [step, hc]
      rw [Text.Quoted.encode, if_neg hc, List.cons_append, List.foldlM_cons, hskip]
      exact ih (some c)

theorem passes_string (text : String) :
    Passes Any Harmless (Value.string text).sql := by
  intro depth last _
  refine ⟨some '\x27', ⟨by decide, by decide⟩, ?_⟩
  have hopen : run ⟨depth, none, last⟩ "'" = some ⟨depth, some '\x27', some '\x27'⟩ := rfl
  have hrest : run ⟨depth, some '\x27', some '\x27'⟩
      (String.ofList (Text.Quoted.encode '\x27' text.toList) ++ "'") =
        some ⟨depth, none, some '\x27'⟩ := by
    rw [run, String.toList_append, String.toList_ofList]
    exact foldlM_encode (by decide) _ depth _
  rw [Value.sql, String.append_assoc, run_append, hopen, Option.bind_some, hrest]

end Scan

/-- An optional sign and digits. -/
def SignedDigits (text : String) : Prop :=
  ∃ sign ∈ ["", "-", "+"], ∃ digits : String, digits ≠ "" ∧
    digits.toList.all Char.isDigit = true ∧ text = sign ++ digits

theorem Scan.isCalm_of_isDigit {c : Char} (h : c.isDigit = true) : isCalm c = true := by
  by_contra hcalm
  simp only [isCalm, isQuote, Bool.and_eq_true, Bool.not_eq_true', Bool.or_eq_false_iff,
    beq_eq_false_iff_ne, bne_iff_ne, not_and_or, not_not] at hcalm
  obtain ((((((rfl | rfl) | rfl) | rfl) | rfl) | rfl) | rfl) | rfl := hcalm <;>
    exact absurd h (by decide)

theorem SignedDigits.spliceable {text : String} (h : SignedDigits text) : Spliceable text := by
  obtain ⟨sign, hsign, digits, hne, hdigits, rfl⟩ := h
  have hempty : digits.toList ≠ [] := by simpa using hne
  have hcalm : digits.toList.all isCalm = true :=
    List.all_eq_true.2 fun c hc ↦ isCalm_of_isDigit (List.all_eq_true.1 hdigits c hc)
  have hrest : Passes Any Any digits :=
    (passes_of_ne_nil hcalm hempty).mono (fun _ hlast ↦ hlast) fun _ _ ↦ trivial
  have hfront : Passes Harmless Any sign := by
    simp only [List.mem_cons, List.not_mem_nil, or_false] at hsign
    obtain rfl | rfl | rfl := hsign <;> exact Spliceable.passes ⟨_, rfl⟩
  exact (hfront.append hrest).spliceable

/-! ## Parts of a filter -/

theorem passes_guarded {least strength : Nat} {text : String} (h : Spliceable text) :
    Passes Harmless Any (guarded least strength text) := by
  unfold guarded
  split
  · exact h.passes_parens.mono (fun _ _ ↦ trivial) fun _ _ ↦ trivial
  · exact h.passes

theorem passes_sign (op : Sql.UnaryOp) : Passes Harmless NoSlash op.text := by
  intro depth last hlast
  cases op with
  | not => exact ⟨some ' ', by simp [NoSlash], rfl⟩
  | minus =>
    have hcomment : ¬ OpensComment last '-' := by simp [OpensComment, hlast.1]
    refine ⟨some '-', by simp [NoSlash], ?_⟩
    simp [run, Sql.UnaryOp.text, step, hcomment, isQuote]
  | plus => exact ⟨some '+', by simp [NoSlash], rfl⟩

theorem spliceable_signedText (op : Sql.UnaryOp) {operand : String} (h : Spliceable operand) :
    Spliceable (signedText op operand) := by
  unfold signedText
  split
  · exact (h.append_parens (passes_sign op)).spliceable
  next hsigned =>
    by_cases hop : op = .not
    · subst hop
      have hword : Passes Harmless Harmless Sql.UnaryOp.not.text :=
        passes_of_all_isCalm (by decide +kernel)
      exact (hword.append h.passes).spliceable
    · have hsign : startsWithSign operand = false := by simpa [hop] using hsigned
      exact ((passes_sign op).append (h.passes_of_not_startsWithSign hsign)).spliceable

theorem passes_binaryOp (op : Sql.BinaryOp) : Passes Harmless Any op.text := by
  refine Spliceable.passes ?_
  cases op <;> exact ⟨_, rfl⟩

theorem passes_logicalOp (op : Sql.LogicalOp) : Passes Harmless Any op.text := by
  refine Spliceable.passes ?_
  cases op <;> exact ⟨_, rfl⟩

theorem passes_space : Passes Any Harmless " " := passes_of_ne_nil (by decide) (by decide)

theorem passes_negation (negated : Bool) : Passes Harmless Harmless (Sql.negation negated) := by
  cases negated <;> exact passes_of_all_isCalm (by decide +kernel)

theorem passes_testWord (negated : Bool) {word : String} (h : word.toList.all isCalm = true) :
    Passes Any Harmless (testWord negated word) :=
  ((passes_space.append (passes_negation negated)).append (passes_of_all_isCalm h)).append
    (passes_space.mono (fun _ _ ↦ trivial) fun _ hlast ↦ hlast)

theorem spliceable_commas {texts : List String} (h : ∀ text ∈ texts, Spliceable text) :
    Spliceable (", ".intercalate texts) := by
  have hcomma : Passes Any Harmless ", " := passes_of_ne_nil (by decide +kernel) (by decide +kernel)
  induction texts with
  | nil => exact ⟨none, rfl⟩
  | cons text texts ih =>
    obtain ⟨htext, htexts⟩ := List.forall_mem_cons.1 h
    cases texts with
    | nil => exact htext
    | cons text' texts =>
      rw [String.intercalate_cons_cons]
      exact ((htext.passes.append hcomma).append (ih htexts).passes).spliceable

/-! ## Forms of a filter -/

section Forms

variable {operand text tail : String}

theorem spliceable_joined {op : String} (hop : Passes Harmless Any op)
    (hleft : Passes Harmless Any text) (hright : Passes Harmless Any tail) :
    Spliceable (text ++ " " ++ op ++ " " ++ tail) :=
  ((((hleft.append passes_space).append hop).append passes_space).append hright).spliceable

theorem spliceable_isNull (negated : Bool) (hoperand : Passes Harmless Any operand) :
    Spliceable (operand ++ " IS " ++ Sql.negation negated ++ "NULL") := by
  have his : Passes Any Harmless " IS " := passes_of_ne_nil (by decide +kernel) (by decide +kernel)
  have hnull : Passes Harmless Harmless "NULL" := passes_of_all_isCalm (by decide +kernel)
  exact (((hoperand.append his).append (passes_negation negated)).append hnull).spliceable

theorem spliceable_inList (negated : Bool) (hoperand : Passes Harmless Any operand)
    {texts : List String} (htexts : ∀ text ∈ texts, Spliceable text) :
    Spliceable (operand ++ testWord negated "IN" ++ "(" ++ ", ".intercalate texts ++ ")") := by
  have hword : Passes Any Harmless (testWord negated "IN") :=
    passes_testWord negated (by decide +kernel)
  exact ((spliceable_commas htexts).append_parens (hoperand.append hword)).spliceable

theorem spliceable_between (negated : Bool) (hoperand : Passes Harmless Any operand)
    (hlow : Passes Harmless Any text) (hhigh : Passes Harmless Any tail) :
    Spliceable (operand ++ testWord negated "BETWEEN" ++ text ++ " AND " ++ tail) := by
  have hword : Passes Any Harmless (testWord negated "BETWEEN") :=
    passes_testWord negated (by decide +kernel)
  have hand : Passes Any Harmless " AND " :=
    passes_of_ne_nil (by decide +kernel) (by decide +kernel)
  exact ((((hoperand.append hword).append hlow).append hand).append hhigh).spliceable

theorem spliceable_like (negated ignoreCase : Bool) (hoperand : Passes Harmless Any operand)
    (hpattern : Passes Harmless Any tail) :
    Spliceable (operand ++ testWord negated (Sql.likeWord ignoreCase) ++ tail) := by
  have hword : Passes Any Harmless (testWord negated (Sql.likeWord ignoreCase)) :=
    passes_testWord negated (by cases ignoreCase <;> decide +kernel)
  exact ((hoperand.append hword).append hpattern).spliceable

theorem spliceable_cast {type : String} (hoperand : Spliceable operand) (htype : Spliceable type) :
    Spliceable ("cast(" ++ operand ++ " AS " ++ type ++ ")") := by
  have hname : Passes Harmless Harmless "cast" := passes_of_all_isCalm (by decide +kernel)
  have has : Passes Any Harmless " AS " := passes_of_ne_nil (by decide +kernel) (by decide +kernel)
  have hinner := ((hoperand.passes.append has).append htype.passes).spliceable
  have htext : "cast(" ++ operand ++ " AS " ++ type ++ ")" =
      "cast" ++ "(" ++ (operand ++ " AS " ++ type) ++ ")" := by
    simp only [String.append_assoc]
    rfl
  rw [htext]
  exact (hinner.append_parens hname).spliceable

end Forms

namespace Filter

/-! ## Filters -/

/-- What a filter is put together from besides its columns: the names of functions and types, and
numbers. -/
inductive Fragment
  | name (text : String)
  | number (text : String)
deriving DecidableEq, Repr

def Fragment.Fits : Fragment → Prop
  | .name text => Spliceable text
  | .number text => SignedDigits text

mutual

def fragments : Filter → List Fragment
  | column _ => []
  | value (.number digits) => [.number digits]
  | value _ => []
  | unary _ e => e.fragments
  | binary _ left right => left.fragments ++ right.fragments
  | logical _ left right => left.fragments ++ right.fragments
  | isNull e _ => e.fragments
  | inList e items _ => e.fragments ++ fragmentsAll items
  | between e low high _ => e.fragments ++ (low.fragments ++ high.fragments)
  | like e pattern _ _ => e.fragments ++ pattern.fragments
  | cast e type => .name type :: e.fragments
  | call name args => .name name :: fragmentsAll args
  | unsupported _ => []

def fragmentsAll : List Filter → List Fragment
  | [] => []
  | e :: es => e.fragments ++ fragmentsAll es

end

theorem spliceable_value {v : Value} (h : ∀ x ∈ (value v).fragments, x.Fits) :
    Spliceable v.sql := by
  cases v with
  | number digits => exact (h (.number digits) (List.mem_singleton_self _)).spliceable
  | string text => exact ((passes_string text).mono (fun _ _ ↦ trivial) fun _ h ↦ h).spliceable
  | boolean b => cases b <;> exact ⟨_, rfl⟩
  | null => exact ⟨_, rfl⟩

mutual

/-- A filter of such pieces can be spliced, whatever references are put at its leaves. -/
theorem spliceable_withLeaves (f : Filter) (hsupported : f.supported = true)
    (hfits : ∀ x ∈ f.fragments, x.Fits) {refs : List ColumnRef}
    (hlength : refs.length = f.leaves.length) (hrefs : ∀ ref ∈ refs, Spliceable ref.sql) :
    Spliceable (f.withLeaves refs).render := by
  cases f with
  | column ref =>
    obtain ⟨ref', rfl⟩ := List.length_eq_one_iff.1 hlength
    exact hrefs ref' (List.mem_singleton_self _)
  | value v => exact spliceable_value hfits
  | unary op e =>
    rw [withLeaves, render_unary]
    have he := spliceable_withLeaves e hsupported hfits hlength hrefs
    exact spliceable_signedText op (passes_guarded he).spliceable
  | binary op left right =>
    rw [supported, Bool.and_eq_true] at hsupported
    rw [fragments, List.forall_mem_append] at hfits
    obtain ⟨as, bs, rfl, has, hbs⟩ := exists_append_of_length (hlength.trans List.length_append)
    rw [List.forall_mem_append] at hrefs
    have hleft := spliceable_withLeaves left hsupported.1 hfits.1 has hrefs.1
    have hright := spliceable_withLeaves right hsupported.2 hfits.2 hbs hrefs.2
    rw [withLeaves_binary has, render_binary]
    exact spliceable_joined (passes_binaryOp op) (passes_guarded hleft) (passes_guarded hright)
  | logical op left right =>
    rw [supported, Bool.and_eq_true] at hsupported
    rw [fragments, List.forall_mem_append] at hfits
    obtain ⟨as, bs, rfl, has, hbs⟩ := exists_append_of_length (hlength.trans List.length_append)
    rw [List.forall_mem_append] at hrefs
    have hleft := spliceable_withLeaves left hsupported.1 hfits.1 has hrefs.1
    have hright := spliceable_withLeaves right hsupported.2 hfits.2 hbs hrefs.2
    rw [withLeaves_logical has, render_logical]
    exact spliceable_joined (passes_logicalOp op) (passes_guarded hleft) (passes_guarded hright)
  | isNull e negated =>
    rw [withLeaves, render_isNull]
    have he := spliceable_withLeaves e hsupported hfits hlength hrefs
    exact spliceable_isNull negated (passes_guarded he)
  | inList e items negated =>
    rw [supported, Bool.and_eq_true] at hsupported
    rw [fragments, List.forall_mem_append] at hfits
    obtain ⟨as, bs, rfl, has, hbs⟩ := exists_append_of_length (hlength.trans List.length_append)
    rw [List.forall_mem_append] at hrefs
    have he := spliceable_withLeaves e hsupported.1 hfits.1 has hrefs.1
    have hitems := spliceable_withLeavesAll items hsupported.2 hfits.2 hbs hrefs.2
    rw [withLeaves_inList has, render_inList]
    exact spliceable_inList negated (passes_guarded he) hitems
  | between e low high negated =>
    rw [supported, Bool.and_eq_true, Bool.and_eq_true] at hsupported
    rw [fragments, List.forall_mem_append, List.forall_mem_append] at hfits
    obtain ⟨as, rest, rfl, has, hrest⟩ :=
      exists_append_of_length (hlength.trans List.length_append)
    obtain ⟨bs, cs, rfl, hbs, hcs⟩ := exists_append_of_length (hrest.trans List.length_append)
    rw [List.forall_mem_append, List.forall_mem_append] at hrefs
    have he := spliceable_withLeaves e hsupported.1.1 hfits.1 has hrefs.1
    have hlow := spliceable_withLeaves low hsupported.1.2 hfits.2.1 hbs hrefs.2.1
    have hhigh := spliceable_withLeaves high hsupported.2 hfits.2.2 hcs hrefs.2.2
    rw [withLeaves_between has hbs, render_between]
    exact spliceable_between negated (passes_guarded he) (passes_guarded hlow)
      (passes_guarded hhigh)
  | like e pattern negated ignoreCase =>
    rw [supported, Bool.and_eq_true] at hsupported
    rw [fragments, List.forall_mem_append] at hfits
    obtain ⟨as, bs, rfl, has, hbs⟩ := exists_append_of_length (hlength.trans List.length_append)
    rw [List.forall_mem_append] at hrefs
    have he := spliceable_withLeaves e hsupported.1 hfits.1 has hrefs.1
    have hpattern := spliceable_withLeaves pattern hsupported.2 hfits.2 hbs hrefs.2
    rw [withLeaves_like has, render_like]
    exact spliceable_like negated ignoreCase (passes_guarded he) (passes_guarded hpattern)
  | cast e type =>
    rw [fragments, List.forall_mem_cons] at hfits
    have he := spliceable_withLeaves e hsupported hfits.2 hlength hrefs
    rw [withLeaves, render_cast]
    exact spliceable_cast he hfits.1
  | call name args =>
    rw [fragments, List.forall_mem_cons] at hfits
    have hname : Spliceable name := hfits.1
    have hargs := spliceable_withLeavesAll args hsupported hfits.2 hlength hrefs
    rw [withLeaves, render_call]
    exact ((spliceable_commas hargs).append_parens hname.passes).spliceable
  | unsupported e => cases hsupported

theorem spliceable_withLeavesAll (fs : List Filter) (hsupported : supportedAll fs = true)
    (hfits : ∀ x ∈ fragmentsAll fs, x.Fits) {refs : List ColumnRef}
    (hlength : refs.length = (leavesAll fs).length) (hrefs : ∀ ref ∈ refs, Spliceable ref.sql) :
    ∀ text ∈ (withLeavesAll refs fs).map render, Spliceable text := by
  cases fs with
  | nil => simp [withLeavesAll]
  | cons f fs =>
    rw [supportedAll, Bool.and_eq_true] at hsupported
    rw [fragmentsAll, List.forall_mem_append] at hfits
    obtain ⟨as, bs, rfl, has, hbs⟩ := exists_append_of_length (hlength.trans List.length_append)
    rw [List.forall_mem_append] at hrefs
    have hf := spliceable_withLeaves f hsupported.1 hfits.1 has hrefs.1
    have hfs := spliceable_withLeavesAll fs hsupported.2 hfits.2 hbs hrefs.2
    rw [withLeavesAll_cons has, List.map_cons, List.forall_mem_cons]
    exact ⟨hf, hfs⟩

end

theorem spliceable_qualified {qualifier : Option String} {ref : ColumnRef}
    (hqualifier : ∀ q, qualifier = some q → Spliceable q) (href : Spliceable ref.sql) :
    Spliceable (qualified qualifier ref) := by
  cases qualifier with
  | none => exact href
  | some q =>
    have hdot : Passes Any Harmless "." := passes_of_ne_nil (by decide) (by decide)
    exact (((hqualifier q rfl).passes.append hdot).append href.passes).spliceable

/-- The text of a supported filter can be spliced if its columns, the names of its functions and
types and its numbers can, and so can its rewriting, by any resolver, if the names that it puts in
front of the columns can.  Numbers may have one sign; strings are arbitrary. -/
theorem spliceable_rewrite {σ : Type} (resolve : String → StateM σ (Option String)) {f : Filter}
    (hsupported : f.supported = true) (hcolumns : ∀ ref ∈ f.leaves, Spliceable ref.sql)
    (hfits : ∀ x ∈ f.fragments, x.Fits) (st : σ)
    (hanswers : ∀ q, some q ∈ ((f.references.mapM resolve).run st).1 → Spliceable q) :
    Spliceable f.render ∧
      ∃ text st', (f.rewrite resolve).run.run st = (.ok text, st') ∧ Spliceable text := by
  constructor
  · have hrender := spliceable_withLeaves f hsupported hfits rfl hcolumns
    rwa [withLeaves_leaves] at hrender
  · refine ⟨_, _, run_write resolve f hsupported st, ?_⟩
    refine spliceable_withLeaves f hsupported hfits (length_found resolve _ _) fun ref href ↦ ?_
    rw [found_eq, ← references_eq f hsupported] at href
    rw [← List.map_uncurry_zip_eq_zipWith, List.mem_map] at href
    obtain ⟨⟨answer, ref'⟩, hmem, rfl⟩ := href
    obtain ⟨hanswer, href'⟩ := List.of_mem_zip hmem
    refine spliceable_qualified (fun q hq ↦ ?_) (hcolumns ref' href')
    exact hanswers q (hq ▸ hanswer)

/-- A column with a parenthesis and a comment in its quotes, a string of the same, and signs. -/
theorem splices_quotes_and_signs :
    let resolve : String → StateM Nat (Option String) := fun name asked ↦
      (if name = "b" then none else some "t", asked + 1)
    let f : Filter := logical .and
      (binary .eq (column ⟨"a--(", "\x22a--(\x22"⟩) (value (.string "it's -- /* (")))
      (binary .lt (unary .minus (unary .minus (value (.number "-5")))) (column (.plain "b")))
    f.supported = true ∧ (∀ ref ∈ f.leaves, Spliceable ref.sql) ∧ (∀ x ∈ f.fragments, x.Fits) ∧
      f.render = "\x22a--(\x22 = 'it''s -- /* (' AND -(-(-5)) < b" ∧ Spliceable f.render ∧
      ∃ text st', (f.rewrite resolve).run.run 0 = (.ok text, st') ∧ Spliceable text := by
  intro resolve f
  have hcolumns : ∀ ref ∈ f.leaves, Spliceable ref.sql := by
    simp only [f, leaves, List.cons_append, List.nil_append, List.forall_mem_cons]
    exact ⟨⟨_, rfl⟩, ⟨_, rfl⟩, by simp⟩
  have hfits : ∀ x ∈ f.fragments, x.Fits := by
    have hnumber : SignedDigits "-5" :=
      ⟨"-", by decide, "5", by decide, by decide, by decide +kernel⟩
    exact List.forall_mem_singleton.2 hnumber
  have hanswers : ∀ q, some q ∈ ((f.references.mapM resolve).run 0).1 → Spliceable q := by
    intro q hq
    have hrun : ((f.references.mapM resolve).run 0).1 = [some "t", none] := by decide +kernel
    rw [hrun] at hq
    obtain rfl : q = "t" := by simpa using hq
    exact ⟨_, rfl⟩
  exact ⟨rfl, hcolumns, hfits, by decide +kernel,
    spliceable_rewrite resolve rfl hcolumns hfits 0 hanswers⟩

end Filter

end Funnel
