import Funnel.Proofs.Leaves

/-!
# The Spans of a Written Filter

The text of a filter is a row of spans (`textOf_spans`).  The two parentheses that a sign may
need around its operand are spans of their own, which are written or not as the text of the
operand demands; every other parenthesis belongs to the frame of the filter.  Whatever references
are put at the leaves, the row stays as it is but for the columns and the operands of signs
(`map_blank_withLeaves`).
-/

namespace Funnel.Filter

open Sql (UnaryOp)

/-! ## Spans of a text -/

/-- A span of the text of a filter: a column, one of the two parentheses that a sign may need
around an operand with the given text, or anything else. -/
inductive Span
  | text (s : String)
  | column (ref : ColumnRef)
  | enclosing (mark operand : String)

/-- What is written for a span.  The parentheses of a sign are written if the text of its operand
begins with a sign. -/
def Span.sql : Span → String
  | text s => s
  | column ref => ref.sql
  | enclosing mark operand => if startsWithSign operand then mark else ""

/-- A span without what the columns of the filter decide. -/
def Span.blank : Span → Span
  | text s => text s
  | column _ => column ⟨"", ""⟩
  | enclosing mark _ => enclosing mark ""

/-- The text that the spans make. -/
def textOf (spans : List Span) : String := String.join (spans.map Span.sql)

/-- The spans of an operand, in parentheses if it is too weak for its place. -/
def guardedSpans (least strength : Nat) (spans : List Span) : List Span :=
  if strength < least then .text "(" :: (spans ++ [.text ")"]) else spans

/-- The spans of an operator before its operand. -/
def signedSpans (op : UnaryOp) (operand : List Span) : List Span :=
  if op = .not then .text op.text :: operand
  else .text op.text :: .enclosing "(" (textOf operand) ::
    (operand ++ [.enclosing ")" (textOf operand)])

mutual

/-- The spans that a filter is written in. -/
def spans : Filter → List Span
  | column ref => [.column ref]
  | value v => [.text v.sql]
  | unary op e => signedSpans op (guardedSpans (strength (.unary op e)) e.strength e.spans)
  | binary op left right =>
    guardedSpans (operatorStrength op) left.strength left.spans ++
      .text (" " ++ op.text ++ " ") ::
      guardedSpans (operatorStrength op + 1) right.strength right.spans
  | logical op left right =>
    guardedSpans (strength (.logical op left right)) left.strength left.spans ++
      .text (" " ++ op.text ++ " ") ::
      guardedSpans (strength (.logical op left right)) right.strength right.spans
  | isNull e negated =>
    guardedSpans operandStrength e.strength e.spans ++
      [.text (" IS " ++ Sql.negation negated ++ "NULL")]
  | inList e items negated =>
    guardedSpans operandStrength e.strength e.spans ++ .text (testWord negated "IN" ++ "(") ::
      ([.text ", "].intercalate (spansAll items) ++ [.text ")"])
  | between e low high negated =>
    guardedSpans operandStrength e.strength e.spans ++ .text (testWord negated "BETWEEN") ::
      (guardedSpans operandStrength low.strength low.spans ++ .text " AND " ::
        guardedSpans operandStrength high.strength high.spans)
  | like e pattern negated ignoreCase =>
    guardedSpans operandStrength e.strength e.spans ++
      .text (testWord negated (Sql.likeWord ignoreCase)) ::
      guardedSpans operandStrength pattern.strength pattern.spans
  | cast e type => .text "cast(" :: (e.spans ++ [.text (" AS " ++ type ++ ")")])
  | call name args =>
    .text (name ++ "(") :: ([.text ", "].intercalate (spansAll args) ++ [.text ")"])
  | unsupported e => [.text e.sql]

def spansAll : List Filter → List (List Span)
  | [] => []
  | e :: es => e.spans :: spansAll es

end

@[simp]
theorem textOf_nil : textOf [] = "" := rfl

@[simp]
theorem textOf_cons (span : Span) (row : List Span) :
    textOf (span :: row) = span.sql ++ textOf row := String.join_cons

@[simp]
theorem textOf_append (row row' : List Span) :
    textOf (row ++ row') = textOf row ++ textOf row' := by
  rw [textOf, List.map_append, String.join_append]
  rfl

theorem textOf_singleton (span : Span) : textOf [span] = span.sql := by
  rw [textOf_cons, textOf_nil, String.append_empty]

theorem textOf_intercalate (separator : String) (rows : List (List Span)) :
    textOf ([.text separator].intercalate rows) = separator.intercalate (rows.map textOf) := by
  induction rows with
  | nil => rfl
  | cons row rows ih =>
    cases rows with
    | nil => rw [List.intercalate_singleton, List.map_singleton, String.intercalate_singleton]
    | cons row' rows =>
      rw [List.intercalate_cons_cons, textOf_append, textOf_append, ih, textOf_singleton]
      exact String.intercalate_cons_cons.symm

theorem textOf_guardedSpans (least strength : Nat) (row : List Span) :
    textOf (guardedSpans least strength row) = guarded least strength (textOf row) := by
  unfold guardedSpans guarded
  split
  · simp [Span.sql, String.append_assoc]
  · rfl

theorem textOf_signedSpans (op : UnaryOp) (operand : List Span) :
    textOf (signedSpans op operand) = signedText op (textOf operand) := by
  unfold signedSpans signedText
  by_cases hop : op = .not
  · simp [hop, Span.sql]
  · by_cases hsign : startsWithSign (textOf operand)
    · simp [hop, hsign, Span.sql, String.append_assoc]
    · simp [hop, hsign, Span.sql]

mutual

/-- The spans of a filter make its text. -/
theorem textOf_spans (f : Filter) : textOf f.spans = f.render := by
  cases f with
  | column ref => rw [spans, textOf_singleton, render_column, Span.sql]
  | value v =>
    rw [spans, textOf_singleton]
    rfl
  | unary op e =>
    rw [spans, textOf_signedSpans, textOf_guardedSpans, textOf_spans e, render_unary]
  | binary op left right =>
    rw [spans, textOf_append, textOf_cons, textOf_guardedSpans, textOf_guardedSpans,
      textOf_spans left, textOf_spans right, render_binary]
    simp only [Span.sql, String.append_assoc]
  | logical op left right =>
    rw [spans, textOf_append, textOf_cons, textOf_guardedSpans, textOf_guardedSpans,
      textOf_spans left, textOf_spans right, render_logical]
    simp only [Span.sql, String.append_assoc]
  | isNull e negated =>
    rw [spans, textOf_append, textOf_singleton, textOf_guardedSpans, textOf_spans e,
      render_isNull]
    simp only [Span.sql, String.append_assoc]
  | inList e items negated =>
    rw [spans, textOf_append, textOf_cons, textOf_append, textOf_singleton, textOf_guardedSpans,
      textOf_intercalate, textOf_spans e, map_textOf_spansAll items, render_inList]
    simp only [Span.sql, String.append_assoc]
  | between e low high negated =>
    rw [spans, textOf_append, textOf_cons, textOf_append, textOf_cons, textOf_guardedSpans,
      textOf_guardedSpans, textOf_guardedSpans, textOf_spans e, textOf_spans low,
      textOf_spans high, render_between]
    simp only [Span.sql, String.append_assoc]
  | like e pattern negated ignoreCase =>
    rw [spans, textOf_append, textOf_cons, textOf_guardedSpans, textOf_guardedSpans,
      textOf_spans e, textOf_spans pattern, render_like]
    simp only [Span.sql, String.append_assoc]
  | cast e type =>
    rw [spans, textOf_cons, textOf_append, textOf_singleton, textOf_spans e, render_cast]
    simp only [Span.sql, String.append_assoc]
  | call name args =>
    rw [spans, textOf_cons, textOf_append, textOf_singleton, textOf_intercalate,
      map_textOf_spansAll args, render_call]
    simp only [Span.sql, String.append_assoc]
  | unsupported e =>
    rw [spans, textOf_singleton]
    rfl

theorem map_textOf_spansAll (fs : List Filter) : (spansAll fs).map textOf = fs.map render := by
  cases fs with
  | nil => rfl
  | cons f fs =>
    rw [spansAll, List.map_cons, List.map_cons, textOf_spans f, map_textOf_spansAll fs]

end

/-! ## The frame of a text -/

theorem map_blank_guardedSpans (least strength : Nat) (row : List Span) :
    (guardedSpans least strength row).map Span.blank =
      guardedSpans least strength (row.map Span.blank) := by
  unfold guardedSpans
  split
  · rw [List.map_cons, List.map_append]
    rfl
  · rfl

theorem map_blank_signedSpans (op : UnaryOp) {row row' : List Span}
    (h : row.map Span.blank = row'.map Span.blank) :
    (signedSpans op row).map Span.blank = (signedSpans op row').map Span.blank := by
  unfold signedSpans
  by_cases hop : op = .not
  · simp [hop, h]
  · simp [hop, h, Span.blank]

theorem map_blank_intercalate (separator : String) (rows : List (List Span)) :
    ([.text separator].intercalate rows).map Span.blank =
      [.text separator].intercalate (rows.map (List.map Span.blank)) := by
  induction rows with
  | nil => rfl
  | cons row rows ih =>
    cases rows with
    | nil => rw [List.intercalate_singleton, List.map_singleton, List.intercalate_singleton]
    | cons row' rows =>
      rw [List.intercalate_cons_cons, List.map_append, List.map_append, ih]
      exact List.intercalate_cons_cons.symm

mutual

/-- The spans of a filter stay as they are but for its columns and the operands of its signs,
whatever references are put at the leaves. -/
theorem map_blank_withLeaves (refs : List ColumnRef) (f : Filter) :
    (f.withLeaves refs).spans.map Span.blank = f.spans.map Span.blank := by
  cases f with
  | column ref => rfl
  | value v => rfl
  | unary op e =>
    -- The operand decides whether its parentheses are written, so only the blank spans agree.
    rw [withLeaves, spans, spans, strength_unary_congr op (e.withLeaves refs) e,
      strength_withLeaves]
    apply map_blank_signedSpans
    rw [map_blank_guardedSpans, map_blank_guardedSpans, map_blank_withLeaves refs e]
  | binary op left right =>
    simp only [withLeaves, spans, strength_withLeaves, List.map_append, List.map_cons,
      map_blank_guardedSpans, map_blank_withLeaves _ left, map_blank_withLeaves _ right]
  | logical op left right =>
    have hstrength (l r : Filter) :
        strength (logical op l r) = strength (logical op left right) :=
      strength_logical_congr op l r left right
    simp only [withLeaves, spans, strength_withLeaves, hstrength (left.withLeaves _),
      List.map_append, List.map_cons, map_blank_guardedSpans, map_blank_withLeaves _ left,
      map_blank_withLeaves _ right]
  | isNull e negated =>
    simp only [withLeaves, spans, strength_withLeaves, List.map_append,
      map_blank_guardedSpans, map_blank_withLeaves _ e]
  | inList e items negated =>
    simp only [withLeaves, spans, strength_withLeaves, List.map_append, List.map_cons,
      map_blank_guardedSpans, map_blank_withLeaves _ e, map_blank_intercalate,
      map_blank_withLeavesAll _ items]
  | between e low high negated =>
    simp only [withLeaves, spans, strength_withLeaves, List.map_append, List.map_cons,
      map_blank_guardedSpans, map_blank_withLeaves _ e, map_blank_withLeaves _ low,
      map_blank_withLeaves _ high]
  | like e pattern negated ignoreCase =>
    simp only [withLeaves, spans, strength_withLeaves, List.map_append, List.map_cons,
      map_blank_guardedSpans, map_blank_withLeaves _ e, map_blank_withLeaves _ pattern]
  | cast e type =>
    simp only [withLeaves, spans, List.map_append, List.map_cons, map_blank_withLeaves refs e]
  | call name args =>
    simp only [withLeaves, spans, List.map_append, List.map_cons, map_blank_intercalate,
      map_blank_withLeavesAll refs args]
  | unsupported e => rfl

theorem map_blank_withLeavesAll (refs : List ColumnRef) (fs : List Filter) :
    (spansAll (withLeavesAll refs fs)).map (List.map Span.blank) =
      (spansAll fs).map (List.map Span.blank) := by
  cases fs with
  | nil => rfl
  | cons f fs =>
    rw [withLeavesAll, spansAll, spansAll, List.map_cons, List.map_cons,
      map_blank_withLeaves _ f, map_blank_withLeavesAll _ fs]

end

end Funnel.Filter
