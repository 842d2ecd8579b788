import Funnel.Filter.Render

/-!
# Rewriting the Columns of a Filter

What a written filter depends on: the texts of its own column references and nothing else
(`write_congr`).  A rewriting fails exactly when some node of the filter is not supported
(`isOk_rewriteWith`), whatever tables are named for its columns.  Otherwise it is the text of the
filter with every column behind its table (`rewriteWith_eq_render`).
-/

namespace Funnel.Filter

open Sql (UnaryOp LogicalOp Expr)

/-! ## Columns -/

theorem mem_firstOccurrences {names : List String} {x : String} :
    x ∈ firstOccurrences names ↔ x ∈ names := by
  have hfold : ∀ (names seen : List String),
      x ∈ names.foldl (fun seen name ↦ if seen.contains name then seen else seen ++ [name]) seen ↔
        x ∈ seen ∨ x ∈ names := by
    intro names
    induction names with
    | nil => simp
    | cons name rest ih =>
      intro seen
      rw [List.foldl_cons, ih, List.mem_cons]
      by_cases hseen : name ∈ seen
      · by_cases hx : x = name <;> simp [hseen, hx]
      · simp [hseen, or_assoc]
  rw [firstOccurrences, hfold]
  simp

theorem nodup_firstOccurrences (names : List String) : (firstOccurrences names).Nodup := by
  have hfold : ∀ (names seen : List String), seen.Nodup →
      (names.foldl (fun seen name ↦ if seen.contains name then seen else seen ++ [name])
        seen).Nodup := by
    intro names
    induction names with
    | nil => exact fun _ h ↦ h
    | cons name rest ih =>
      intro seen h
      rw [List.foldl_cons]
      apply ih
      by_cases hseen : name ∈ seen
      · simpa [hseen] using h
      · have hne : ∀ x ∈ seen, x ≠ name := fun x hx heq ↦ hseen (heq ▸ hx)
        simpa [hseen, List.nodup_append] using ⟨h, hne⟩
  exact hfold names [] .nil

theorem nodup_columns (f : Filter) : f.columns.Nodup := nodup_firstOccurrences f.references

theorem mem_columns {f : Filter} {x : String} : x ∈ f.columns ↔ x ∈ f.references :=
  mem_firstOccurrences

theorem mentions_iff {f : Filter} {x : String} : f.mentions x = true ↔ x ∈ f.references := by
  simp [mentions]

/-! ## What a text depends on -/

section Congruence

variable {m : Type → Type} [Monad m] {leaf leaf' : ColumnRef → m String} {foreign : Expr → m String}

mutual

/-- Two ways to write columns give the same text if they agree on the columns of the filter. -/
theorem write_congr (f : Filter) (h : ∀ ref, ref.name ∈ f.references → leaf ref = leaf' ref) :
    write leaf foreign f = write leaf' foreign f := by
  cases f with
  | column ref => exact h ref (by simp [references])
  | value v => rfl
  | unary op e => rw [write, write, write_congr e h]
  | binary op left right =>
    rw [write, write, write_congr left fun ref href ↦ h ref (by simp [references, href]),
      write_congr right fun ref href ↦ h ref (by simp [references, href])]
  | logical op left right =>
    rw [write, write, write_congr left fun ref href ↦ h ref (by simp [references, href]),
      write_congr right fun ref href ↦ h ref (by simp [references, href])]
  | isNull e negated => rw [write, write, write_congr e h]
  | inList e items negated =>
    rw [write, write, write_congr e fun ref href ↦ h ref (by simp [references, href]),
      writeAll_congr items fun ref href ↦ h ref (by simp [references, href])]
  | between e low high negated =>
    rw [write, write, write_congr e fun ref href ↦ h ref (by simp [references, href]),
      write_congr low fun ref href ↦ h ref (by simp [references, href]),
      write_congr high fun ref href ↦ h ref (by simp [references, href])]
  | like e pattern negated ignoreCase =>
    rw [write, write, write_congr e fun ref href ↦ h ref (by simp [references, href]),
      write_congr pattern fun ref href ↦ h ref (by simp [references, href])]
  | cast e type => rw [write, write, write_congr e h]
  | call name args => rw [write, write, writeAll_congr args h]
  | unsupported e => rfl

theorem writeAll_congr (fs : List Filter)
    (h : ∀ ref, ref.name ∈ referencesAll fs → leaf ref = leaf' ref) :
    writeAll leaf foreign fs = writeAll leaf' foreign fs := by
  cases fs with
  | nil => rfl
  | cons f fs =>
    rw [writeAll, writeAll, write_congr f fun ref href ↦ h ref (by simp [referencesAll, href]),
      writeAll_congr fs fun ref href ↦ h ref (by simp [referencesAll, href])]

end

end Congruence

theorem rewriteWith_congr {table table' : String → Option String} {f : Filter}
    (h : ∀ x ∈ f.references, table x = table' x) : f.rewriteWith table = f.rewriteWith table' := by
  refine write_congr f fun ref href ↦ ?_
  rw [h ref.name href]

/-! ## Failure -/

section Failure

variable {ε : Type}

@[simp]
theorem isOk_map {α β : Type} (x : Except ε α) (g : α → β) :
    (x >>= fun a ↦ pure (g a)).isOk = x.isOk := by
  cases x <;> rfl

theorem isOk_bind {α β : Type} {x : Except ε α} {next : α → Except ε β} {b : Bool}
    (h : ∀ a, (next a).isOk = b) : (x >>= next).isOk = (x.isOk && b) := by
  cases x with
  | error e => rfl
  | ok a => exact h a

variable {leaf : ColumnRef → String} {fault : Expr → ε}

mutual

theorem isOk_write (f : Filter) :
    (write (fun ref ↦ Except.ok (leaf ref)) (fun e ↦ .error (fault e)) f).isOk = f.supported := by
  cases f with
  | column ref => rfl
  | value v => rfl
  | unary op e => rw [write, isOk_map, isOk_write e, supported]
  | binary op left right =>
    rw [write, isOk_bind fun _ ↦ (isOk_map _ _).trans (isOk_write right), isOk_write left,
      supported]
  | logical op left right =>
    rw [write, isOk_bind fun _ ↦ (isOk_map _ _).trans (isOk_write right), isOk_write left,
      supported]
  | isNull e negated => rw [write, isOk_map, isOk_write e, supported]
  | inList e items negated =>
    rw [write, isOk_bind fun _ ↦ (isOk_map _ _).trans (isOk_writeAll items), isOk_write e,
      supported]
  | between e low high negated =>
    rw [write, isOk_bind fun _ ↦ isOk_bind fun _ ↦ (isOk_map _ _).trans (isOk_write high),
      isOk_write e, isOk_write low, supported, Bool.and_assoc]
  | like e pattern negated ignoreCase =>
    rw [write, isOk_bind fun _ ↦ (isOk_map _ _).trans (isOk_write pattern), isOk_write e, supported]
  | cast e type => rw [write, isOk_map, isOk_write e, supported]
  | call name args => rw [write, isOk_map, isOk_writeAll args, supported]
  | unsupported e => rfl

theorem isOk_writeAll (fs : List Filter) :
    (writeAll (fun ref ↦ Except.ok (leaf ref)) (fun e ↦ .error (fault e)) fs).isOk =
      supportedAll fs := by
  cases fs with
  | nil => rfl
  | cons f fs =>
    rw [writeAll, isOk_bind fun _ ↦ (isOk_map _ _).trans (isOk_writeAll fs), isOk_write f,
      supportedAll]

end

/-- A rewriting fails exactly for the filters with an unsupported node. -/
theorem isOk_rewriteWith (table : String → Option String) (f : Filter) :
    (f.rewriteWith table).isOk = f.supported := isOk_write f

theorem rewriteWith_of_not_supported {f : Filter} (h : f.supported = false)
    (table : String → Option String) : ∃ e, f.rewriteWith table = .error e := by
  have hok := isOk_rewriteWith table f
  cases hr : f.rewriteWith table with
  | error e => exact ⟨e, rfl⟩
  | ok text => simp [hr, h, Except.isOk, Except.toBool] at hok

theorem rewriteWith_of_supported {f : Filter} (h : f.supported = true)
    (table : String → Option String) : ∃ text, f.rewriteWith table = .ok text := by
  have hok := isOk_rewriteWith table f
  cases hr : f.rewriteWith table with
  | error e => simp [hr, h, Except.isOk, Except.toBool] at hok
  | ok text => exact ⟨text, rfl⟩

end Failure

/-! ## Columns behind their tables -/

theorem strength_unary_congr (op : UnaryOp) (e e' : Filter) :
    strength (unary op e) = strength (unary op e') := by
  cases op <;> rfl

theorem strength_logical_congr (op : LogicalOp) (left right left' right' : Filter) :
    strength (logical op left right) = strength (logical op left' right') := by
  cases op <;> rfl

section ReadFrom

variable (table : String → Option String)

mutual

/-- The filter with every column behind the table that is named for it. -/
def readFrom : Filter → Filter
  | column ref => column ⟨ref.name, qualified (table ref.name) ref⟩
  | value v => value v
  | unary op e => unary op e.readFrom
  | binary op left right => binary op left.readFrom right.readFrom
  | logical op left right => logical op left.readFrom right.readFrom
  | isNull e negated => isNull e.readFrom negated
  | inList e items negated => inList e.readFrom (readAllFrom items) negated
  | between e low high negated => between e.readFrom low.readFrom high.readFrom negated
  | like e pattern negated ignoreCase => like e.readFrom pattern.readFrom negated ignoreCase
  | cast e type => cast e.readFrom type
  | call name args => call name (readAllFrom args)
  | unsupported e => unsupported e

def readAllFrom : List Filter → List Filter
  | [] => []
  | e :: es => e.readFrom :: readAllFrom es

end

/-- Tables do not change where parentheses stand. -/
@[simp]
theorem strength_readFrom (f : Filter) : (f.readFrom table).strength = f.strength := by
  cases f with
  | unary op e => exact strength_unary_congr op _ e
  | logical op left right => exact strength_logical_congr op _ _ left right
  | _ => rfl

variable {ε : Type} (fault : Expr → ε)

mutual

theorem write_readFrom (f : Filter) (h : f.supported = true) :
    write (fun ref ↦ Except.ok (qualified (table ref.name) ref)) (fun e ↦ .error (fault e)) f =
      .ok (f.readFrom table).render := by
  cases f with
  | column ref => rfl
  | value v => rfl
  | unary op e =>
    simp only [readFrom, render, write, strength_readFrom, write_readFrom e h,
      strength_unary_congr op (e.readFrom table) e]
    rfl
  | binary op left right =>
    rw [supported, Bool.and_eq_true] at h
    simp only [readFrom, render, write, strength_readFrom, write_readFrom left h.1,
      write_readFrom right h.2]
    rfl
  | logical op left right =>
    have hstrength :=
      strength_logical_congr op (left.readFrom table) (right.readFrom table) left right
    rw [supported, Bool.and_eq_true] at h
    simp only [readFrom, render, write, strength_readFrom, hstrength, write_readFrom left h.1,
      write_readFrom right h.2]
    rfl
  | isNull e negated =>
    simp only [readFrom, render, write, strength_readFrom, write_readFrom e h]
    rfl
  | inList e items negated =>
    rw [supported, Bool.and_eq_true] at h
    simp only [readFrom, render, write, strength_readFrom, write_readFrom e h.1,
      writeAll_readFrom items h.2]
    rfl
  | between e low high negated =>
    rw [supported, Bool.and_eq_true, Bool.and_eq_true] at h
    simp only [readFrom, render, write, strength_readFrom, write_readFrom e h.1.1,
      write_readFrom low h.1.2, write_readFrom high h.2]
    rfl
  | like e pattern negated ignoreCase =>
    rw [supported, Bool.and_eq_true] at h
    simp only [readFrom, render, write, strength_readFrom, write_readFrom e h.1,
      write_readFrom pattern h.2]
    rfl
  | cast e type =>
    simp only [readFrom, render, write, write_readFrom e h]
    rfl
  | call name args =>
    simp only [readFrom, render, write, writeAll_readFrom args h]
    rfl
  | unsupported e => cases h

theorem writeAll_readFrom (fs : List Filter) (h : supportedAll fs = true) :
    writeAll (fun ref ↦ Except.ok (qualified (table ref.name) ref)) (fun e ↦ .error (fault e)) fs =
      .ok (Id.run (writeAll (fun ref ↦ pure ref.sql) (fun e ↦ pure e.sql)
        (readAllFrom table fs))) := by
  cases fs with
  | nil => rfl
  | cons f fs =>
    rw [supportedAll, Bool.and_eq_true] at h
    rw [writeAll, write_readFrom f h.1, writeAll_readFrom fs h.2]
    rfl

end

/-- A rewriting of a supported filter is the text of the filter with its columns behind their
tables. -/
theorem rewriteWith_eq_render {f : Filter} (h : f.supported = true) :
    f.rewriteWith table = .ok (f.readFrom table).render := write_readFrom table _ f h

end ReadFrom

end Funnel.Filter
