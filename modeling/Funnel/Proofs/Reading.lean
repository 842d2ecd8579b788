import Mathlib
import Funnel.Proofs.Writable

/-!
# What a Written Filter Reads As

`Filter.reading` is the expression that the text of a filter stands for.  Operands that the writer
puts in parentheses are nested; where it puts none although the operator in front binds more
tightly when it is read, `Expr.attach` moves the operator into the operand.  The numbers
`floorOf` and `edgeOf` compare the two tables of binding strengths, that of the writer and that of
the reader.
-/

namespace Funnel

open Sql (UnaryOp BinaryOp LogicalOp Expr Numeral DataType Ident Infix Literal)
open Sql.Grammar (dataType nested maxDepth)

/-! ## The expression behind a text -/

/-- The parts of a dotted name. -/
def nameParts (name : String) : List Ident :=
  (name.toList.splitOn '.').map fun part ↦ .plain (String.ofList part)

/-- The type that a word stands for. -/
def wordType (w : String) : DataType :=
  match dataType (nested false maxDepth) [⟨.ofWord w, w.length⟩] with
  | .ok (type, _) => type
  | .error _ => .interval

/-- The literal that a value is written as. -/
def Value.reading : Value → Literal
  | number digits =>
    match Numeral.read? digits.toList with
    | some (n, _) => .number n false
    | none => .null
  | string text => .string .plain text
  | boolean b => .boolean b
  | null => .null

/-- An operand, in parentheses if it is too weak for its place. -/
def enclosed (least strength : Nat) (e : Expr) : Expr := if strength < least then .nested e else e

/-- The operand of a sign, in parentheses if it begins with a sign itself. -/
def signOperand (op : UnaryOp) : Expr → Expr
  | .unary .minus e => if op = .not then .unary .minus e else .nested (.unary .minus e)
  | .unary .plus e => if op = .not then .unary .plus e else .nested (.unary .plus e)
  | e => e

namespace Filter

mutual

/-- The expression that a filter is read as when it has been written. -/
def reading : Filter → Expr
  | column ref => .column (nameParts ref.name)
  | value v => .literal v.reading
  | unary op e =>
    .unary op (signOperand op (enclosed (strength (.unary op e)) e.strength e.reading))
  | binary op left right =>
    .attach (.binary op) (enclosed (operatorStrength op) left.strength left.reading)
      (enclosed (operatorStrength op + 1) right.strength right.reading)
  | logical op left right =>
    .attach (.logical op)
      (enclosed (strength (.logical op left right)) left.strength left.reading)
      (enclosed (strength (.logical op left right)) right.strength right.reading)
  | isNull e negated => .isNull (enclosed operandStrength e.strength e.reading) negated
  | inList e [] _ => e.reading
  | inList e (first :: others) negated =>
    .inList (enclosed operandStrength e.strength e.reading) first.reading (readingAll others)
      negated
  | between e low high negated =>
    .between (enclosed operandStrength e.strength e.reading)
      (enclosed operandStrength low.strength low.reading)
      (enclosed operandStrength high.strength high.reading) negated
  | like e pattern negated ignoreCase =>
    .like (enclosed operandStrength e.strength e.reading)
      (enclosed operandStrength pattern.strength pattern.reading) negated ignoreCase
  | cast e type => .cast .function e.reading (wordType type)
  | call name args => .call (nameParts name) (readingAll args)
  | unsupported e => e

def readingAll : List Filter → List Expr
  | [] => []
  | e :: es => e.reading :: readingAll es

end

theorem readingAll_eq_map (es : List Filter) : readingAll es = es.map reading := by
  induction es with
  | nil => rfl
  | cons e es ih => rw [readingAll, ih, List.map_cons]

/-! ## The two tables of strengths -/

/-- No operator on the left side of a filter of a strength is read at a level below this one. -/
def floorOf : Nat → Nat
  | 0 => 0
  | 1 => 5
  | 2 => 10
  | 3 => 16
  | 4 => 17
  | 5 => 30
  | 6 => 30
  | 7 => 40
  | _ => 50

/-- No operator on the right side of a filter of a strength is read at a level below this one. -/
def edgeOf : Nat → Nat
  | 0 => 0
  | 1 => 5
  | 2 => 10
  | 3 => 15
  | 4 => 19
  | 5 => 30
  | 6 => 30
  | 7 => 40
  | 8 => 40
  | _ => 50

theorem floorOf_mono : Monotone floorOf := by
  refine monotone_nat_of_le_succ fun n ↦ ?_
  rcases n with _ | _ | _ | _ | _ | _ | _ | _ | n <;> simp [floorOf]

theorem edgeOf_mono : Monotone edgeOf := by
  refine monotone_nat_of_le_succ fun n ↦ ?_
  rcases n with _ | _ | _ | _ | _ | _ | _ | _ | _ | n <;> simp [edgeOf]

/-- The reading of a filter meets its neighbours as its strength says. -/
structure Meets (strength : Nat) (e : Expr) : Prop where
  floor : floorOf strength ≤ e.floor
  edge : edgeOf strength ≤ e.edge

theorem Meets.mono {s s' : Nat} {e : Expr} (h : Meets s e) (hs : s' ≤ s) : Meets s' e :=
  ⟨(floorOf_mono hs).trans h.floor, (edgeOf_mono hs).trans h.edge⟩

theorem meets_nested (s : Nat) (e : Expr) : Meets s (.nested e) := by
  constructor
  · rcases s with _ | _ | _ | _ | _ | _ | _ | _ | s <;> simp [floorOf, Expr.floor]
  · rcases s with _ | _ | _ | _ | _ | _ | _ | _ | _ | s <;> simp [edgeOf, Expr.edge]

theorem Meets.enclosed {s : Nat} {e : Expr} (h : Meets s e) (least : Nat) :
    Meets least (enclosed least s e) := by
  unfold Funnel.enclosed
  split
  · exact meets_nested least e
  · exact h.mono (by omega)

/-! ## Operators -/

/-- The strength of two operands with an operator between them, which is the least strength of the
left one. -/
def leftLeast : Infix → Nat
  | .binary op => operatorStrength op
  | .logical .or => 1
  | .logical .and => 2

/-- The least strength of the right operand of an operator. -/
def rightLeast : Infix → Nat
  | .binary op => operatorStrength op + 1
  | .logical op => leftLeast (.logical op)

/-- The reading of two operands with an operator between them. -/
def joined (op : Infix) (left right : Filter) : Expr :=
  .attach op (enclosed (leftLeast op) left.strength left.reading)
    (enclosed (rightLeast op) right.strength right.reading)

theorem reading_binary (op : BinaryOp) (left right : Filter) :
    (binary op left right).reading = joined (.binary op) left right := by
  rw [reading, joined, leftLeast, rightLeast]

theorem strength_logical (op : LogicalOp) (left right : Filter) :
    (logical op left right).strength = leftLeast (.logical op) := by
  cases op <;> rfl

theorem reading_logical (op : LogicalOp) (left right : Filter) :
    (logical op left right).reading = joined (.logical op) left right := by
  rw [reading, joined, rightLeast, strength_logical]

/-- The strengths of an operator lie below the level at which it is read, and those of its right
operand above. -/
theorem leftLeast_le (op : Infix) : floorOf (leftLeast op) ≤ op.level ∧
    edgeOf (leftLeast op) ≤ op.level ∧ floorOf (leftLeast op) ≤ floorOf (rightLeast op) ∧
    edgeOf (leftLeast op) ≤ floorOf (rightLeast op) := by
  cases op with
  | binary op => cases op <;> decide
  | logical op => cases op <;> decide

/-- An operator binds the right operand that it is written with, unless it is a concatenation or
one of a chain. -/
theorem level_lt_floorOf {op : Infix} (hconcat : op ≠ .binary .concat)
    (hlogical : ∀ op', op ≠ .logical op') : op.level < floorOf (rightLeast op) := by
  cases op with
  | binary op =>
    revert hconcat
    cases op <;> decide
  | logical op => exact absurd rfl (hlogical op)

/-- How the reading of a filter goes together with others. -/
structure Fits (t : Filter) : Prop where
  meets : Meets t.strength t.reading
  grouped : t.reading.Grouped
  /-- A concatenation takes the reading apart, or the whole of it. -/
  concat : 6 ≤ t.strength → Expr.Loose (.binary .concat) t.reading
  /-- The operators of a chain take the reading apart, or the whole of it. -/
  chain : ∀ op : LogicalOp, leftLeast (.logical op) ≤ t.strength →
    Expr.Loose (.logical op) t.reading

namespace Fits

variable {t left right : Filter}

theorem grouped_enclosed (h : Fits t) (least : Nat) :
    (enclosed least t.strength t.reading).Grouped := by
  unfold enclosed
  split
  · exact .nested h.grouped
  · exact h.grouped

theorem loose_enclosed {op : Infix} {least : Nat}
    (hloose : least ≤ t.strength → Expr.Loose op t.reading) :
    Expr.Loose op (enclosed least t.strength t.reading) := by
  have hlevel := op.level_le
  unfold enclosed
  split
  · exact .tight (by simp only [Expr.floor]; omega)
  · exact hloose (by omega)

/-- The right operand of an operator is taken apart by it, or taken as a whole. -/
theorem loose_right (h : Fits t) (op : Infix) :
    Expr.Loose op (enclosed (rightLeast op) t.strength t.reading) := by
  have hfloor := (h.meets.enclosed (rightLeast op)).floor
  cases op with
  | logical op => exact loose_enclosed fun hle ↦ h.chain op hle
  | binary op =>
    by_cases hconcat : op = .concat
    · subst hconcat
      exact loose_enclosed fun hle ↦ h.concat hle
    · exact .tight ((level_lt_floorOf (by simpa using hconcat) (by simp)).trans_le hfloor)

theorem meets_joined (hl : Fits left) (hr : Fits right) (op : Infix) :
    Meets (leftLeast op) (joined op left right) := by
  obtain ⟨hfloor, hedge, hfloor', hedge'⟩ := leftLeast_le op
  have hleft := hl.meets.enclosed (leftLeast op)
  have hright := hr.meets.enclosed (rightLeast op)
  exact ⟨Expr.le_floor_attach (hr.loose_right op) hfloor hleft.floor (hfloor'.trans hright.floor),
    Expr.le_edge_attach (hr.loose_right op) hedge hleft.edge (hedge'.trans hright.floor)⟩

theorem grouped_joined (hl : Fits left) (hr : Fits right) (op : Infix) :
    (joined op left right).Grouped :=
  .attach (hr.loose_right op) (hl.grouped_enclosed _) (hr.grouped_enclosed _)

/-- A node without operators on its left side. -/
theorem of_meets (hmeets : Meets t.strength t.reading) (hgrouped : t.reading.Grouped)
    (hs : 3 ≤ t.strength) (hs' : 6 ≤ t.strength → 8 ≤ t.strength) : Fits t where
  meets := hmeets
  grouped := hgrouped
  concat hstrength := by
    have hfloor : floorOf 8 ≤ t.reading.floor :=
      (floorOf_mono (hs' hstrength)).trans hmeets.floor
    exact .tight (Nat.lt_of_lt_of_le (by decide) hfloor)
  chain op _ := by
    have hfloor : floorOf 3 ≤ t.reading.floor := (floorOf_mono hs).trans hmeets.floor
    refine .tight (Nat.lt_of_lt_of_le ?_ hfloor)
    cases op <;> decide

/-- An operator that binds more tightly than a concatenation takes both operands as a whole. -/
theorem reading_arithmetic (hl : Fits left) (hr : Fits right) {op : BinaryOp}
    (hop : 6 ≤ operatorStrength op) : (Filter.binary op left right).reading =
      .binary op (enclosed (operatorStrength op) left.strength left.reading)
        (enclosed (operatorStrength op + 1) right.strength right.reading) := by
  have hne : Infix.binary op ≠ .binary .concat := by
    intro heq
    cases heq
    exact absurd hop (by decide)
  have hlevel : (Infix.binary op).level ≤ edgeOf (operatorStrength op) := by
    revert hop
    cases op <;> decide
  have hedge := (hl.meets.enclosed (operatorStrength op)).edge
  have hfloor := (hr.meets.enclosed (operatorStrength op + 1)).floor
  have hlt := level_lt_floorOf hne (by simp)
  rw [reading, Expr.attach_of_le (hlevel.trans hedge) (hlt.trans_le hfloor)]
  rfl

/-- A test stands between the negation and the comparisons. -/
theorem of_test (hs : t.strength = 4) (hgrouped : t.reading.Grouped) (hfloor : 17 ≤ t.reading.floor)
    (hedge : 19 ≤ t.reading.edge) : Fits t := by
  have hmeets : Meets t.strength t.reading := by
    rw [hs]
    exact ⟨hfloor, hedge⟩
  exact .of_meets hmeets hgrouped (by omega) (by omega)

theorem binary (hl : Fits left) (hr : Fits right) (op : BinaryOp) :
    Fits (binary op left right) := by
  have hmeets : Meets (Filter.binary op left right).strength
      (Filter.binary op left right).reading := by
    rw [reading_binary]
    exact hl.meets_joined hr (.binary op)
  refine ⟨hmeets, ?_, fun hstrength ↦ ?_, fun op' _ ↦ ?_⟩
  · rw [reading_binary]
    exact hl.grouped_joined hr _
  · have hstrength : 6 ≤ operatorStrength op := hstrength
    rw [hl.reading_arithmetic hr hstrength]
    exact .operator (.binary op) (loose_enclosed fun hle ↦ hl.concat (by omega))
      (Infix.level_le _)
  · have hstrength : 4 ≤ operatorStrength op := by cases op <;> decide
    have hfloor : floorOf 4 ≤ (Filter.binary op left right).reading.floor :=
      (floorOf_mono hstrength).trans hmeets.floor
    refine .tight (Nat.lt_of_lt_of_le ?_ hfloor)
    cases op' <;> decide

theorem logical (hl : Fits left) (hr : Fits right) (op : LogicalOp) :
    Fits (logical op left right) := by
  have hmeets : Meets (Filter.logical op left right).strength
      (Filter.logical op left right).reading := by
    rw [reading_logical, strength_logical]
    exact hl.meets_joined hr (.logical op)
  refine ⟨hmeets, ?_, fun hstrength ↦ ?_, fun op' hle ↦ ?_⟩
  · rw [reading_logical]
    exact hl.grouped_joined hr _
  · have hnot : ¬ 6 ≤ leftLeast (.logical op) := by cases op <;> decide
    exact absurd (hstrength.trans_eq (strength_logical op left right)) hnot
  · rw [strength_logical] at hle
    by_cases heq : op' = op
    · subst heq
      rw [reading_logical]
      have hedge := (hl.meets.enclosed (leftLeast (.logical op'))).edge
      have hfloor := (hr.meets.enclosed (leftLeast (.logical op'))).floor
      have hlevel : (Infix.logical op').level = edgeOf (leftLeast (.logical op')) ∧
          (Infix.logical op').level = floorOf (leftLeast (.logical op')) := by
        cases op' <;> decide
      exact .attach (loose_enclosed (hl.chain op')) (loose_enclosed (hr.chain op'))
        (hlevel.1.trans_le hedge) (hlevel.2.trans_le hfloor)
    · have hfloor := hmeets.floor
      rw [strength_logical] at hfloor
      refine .tight (Nat.lt_of_lt_of_le ?_ hfloor)
      revert hle heq
      cases op <;> cases op' <;> decide

end Fits

theorem signOperand_cases (op : UnaryOp) (e : Expr) :
    signOperand op e = e ∨ op ≠ .not ∧ signOperand op e = .nested e := by
  unfold signOperand
  split <;> by_cases hop : op = .not <;> simp [hop]

theorem Value.reading_number (n : Numeral) : (Value.number n.text).reading = .number n false := by
  have hread : Numeral.read? (n.text.toList ++ []) = some (n, []) :=
    Numeral.read?_append n (by simp)
  rw [List.append_nil] at hread
  rw [Value.reading, hread]

theorem nameParts_ne_nil (name : String) : nameParts name ≠ [] := by
  simp [nameParts, List.splitOn_ne_nil]

theorem readsBack_wordType {w : String} (h : IsTypeWord w) :
    (wordType w).sql = w ∧ Expr.ReadsBack (wordType w) := by
  obtain ⟨-, type, htype, hsql⟩ := h
  rw [wordType, htype]
  exact ⟨hsql, Sql.Grammar.readsBack_of_alone htype hsql⟩

/-- An operand of a test meets all operators that bind more tightly than the test. -/
theorem Fits.operand {t : Filter} (h : Fits t) :
    30 ≤ (enclosed operandStrength t.strength t.reading).floor ∧
      30 ≤ (enclosed operandStrength t.strength t.reading).edge :=
  let hmeets := h.meets.enclosed operandStrength
  ⟨hmeets.floor, hmeets.edge⟩

theorem grouped_readingAll {ts : List Filter} (h : ∀ t ∈ ts, Fits t) :
    ∀ e ∈ readingAll ts, e.Grouped := by
  rw [readingAll_eq_map]
  intro e he
  obtain ⟨t, ht, rfl⟩ := List.mem_map.1 he
  exact (h t ht).grouped

theorem fits {t : Filter} (h : Writable t) : Fits t := by
  induction h with
  | column hsql hname =>
    exact .of_meets ⟨le_rfl, le_rfl⟩ (.column (nameParts_ne_nil _)) (by simp [strength])
      (by simp [strength])
  | number n =>
    refine .of_meets ⟨le_rfl, le_rfl⟩ ?_ (by simp [strength]) (by simp [strength])
    rw [reading, Value.reading_number]
    exact .number n
  | string text =>
    exact .of_meets ⟨le_rfl, le_rfl⟩ (.string text) (by simp [strength]) (by simp [strength])
  | boolean b =>
    exact .of_meets ⟨le_rfl, le_rfl⟩ (.boolean b) (by simp [strength]) (by simp [strength])
  | null => exact .of_meets ⟨le_rfl, le_rfl⟩ .null (by simp [strength]) (by simp [strength])
  | unary op h ih =>
    rename_i e
    have hinner := ih.meets.enclosed (strength (.unary op e))
    have hg := ih.grouped_enclosed (strength (.unary op e))
    have hoperand := signOperand_cases op (enclosed (strength (.unary op e)) e.strength e.reading)
    cases op with
    | not =>
      have hfloor : 16 ≤ _ := hinner.floor
      refine .of_meets ⟨le_rfl, le_rfl⟩ ?_ (by simp [strength]) (by simp [strength])
      obtain heq | ⟨hne, -⟩ := hoperand
      · rw [reading, heq]
        exact .not hg hfloor
      · exact absurd rfl hne
    | _ =>
      have hfloor : 50 ≤ _ := hinner.floor
      refine .of_meets ⟨le_rfl, le_rfl⟩ ?_ (by simp [strength]) (by simp [strength])
      obtain heq | ⟨-, heq⟩ := hoperand
      · rw [reading, heq]
        exact .sign (by decide) hg (by omega)
      · rw [reading, heq]
        exact .sign (by decide) (.nested hg) (by simp [Expr.floor])
  | binary op hl hr ihl ihr => exact ihl.binary ihr op
  | logical op hl hr ihl ihr => exact ihl.logical ihr op
  | isNull negated h ih =>
    obtain ⟨hfloor, hedge⟩ := ih.operand
    refine .of_test rfl (.isNull (ih.grouped_enclosed _) (by omega)) ?_ (Nat.le_add_right 19 31)
    show 17 ≤ min 17 (Expr.floor _)
    omega
  | inList negated h hitems ih ihitems =>
    obtain ⟨hfloor, hedge⟩ := ih.operand
    refine .of_test rfl ?_ ?_ (Nat.le_add_right 19 31)
    · rw [reading]
      exact .inList (ih.grouped_enclosed _) (by omega) (grouped_readingAll ihitems)
    · show 17 ≤ min 20 (Expr.floor _)
      omega
  | between negated h hl hh ih ihl ihh =>
    obtain ⟨hfloor, hedge⟩ := ih.operand
    obtain ⟨hlow, -⟩ := ihl.operand
    obtain ⟨hhigh, -⟩ := ihh.operand
    refine .of_test rfl (.between (ih.grouped_enclosed _) (by omega) (ihl.grouped_enclosed _)
      (by omega) (ihh.grouped_enclosed _) (by omega)) ?_ (Nat.le_succ 19)
    show 17 ≤ min 20 (Expr.floor _)
    omega
  | like negated ignoreCase h hp ih ihp =>
    obtain ⟨hfloor, hedge⟩ := ih.operand
    obtain ⟨hpattern, -⟩ := ihp.operand
    refine .of_test rfl (.like (ih.grouped_enclosed _) (by omega) (ihp.grouped_enclosed _)
      (by omega)) ?_ (Nat.le_refl 19)
    show 17 ≤ min 19 (Expr.floor _)
    omega
  | cast h htype ih =>
    exact .of_meets ⟨le_rfl, le_rfl⟩ (.cast ih.grouped (readsBack_wordType htype).2)
      (by simp [strength]) (by simp [strength])
  | call hname hargs ih =>
    exact .of_meets ⟨le_rfl, le_rfl⟩ (.call (nameParts_ne_nil _) (grouped_readingAll ih))
      (by simp [strength]) (by simp [strength])

/-! ## Depth -/

theorem depth_enclosed_le (least s : Nat) (e : Expr) :
    (enclosed least s e).depth ≤ e.depth + 1 := by
  unfold enclosed
  split
  · rw [Expr.depth]
  · omega

/-- An operator goes to the operand in front of it or to the last operand of that. -/
theorem Fits.near {t : Filter} (h : Fits t) (op : Infix) :
    Expr.Near op (enclosed (leftLeast op) t.strength t.reading) := by
  have hedge := (h.meets.enclosed (leftLeast op)).edge
  have hlevel : op.level ≤ edgeOf (leftLeast op) ∨ 30 ≤ edgeOf (leftLeast op) ∨
      19 ≤ edgeOf (leftLeast op) ∧ op.level ≤ 20 := by
    cases op with
    | binary op => cases op <;> decide
    | logical op => cases op <;> decide
  unfold Expr.Near
  omega

/-- The operands of an operator lie at most three levels below it. -/
theorem Fits.depth_joined_le {left right : Filter} (hl : Fits left) (hr : Fits right) (op : Infix) :
    (joined op left right).depth ≤ max (left.reading.depth + 1) (right.reading.depth + 3) := by
  have hleft := hl.meets.enclosed (leftLeast op)
  have hright := hr.meets.enclosed (rightLeast op)
  have hdepth := depth_enclosed_le (leftLeast op) left.strength left.reading
  have hdepth' := depth_enclosed_le (rightLeast op) right.strength right.reading
  obtain ⟨-, hedge, -, hedge'⟩ := leftLeast_le op
  have hlevel : (op.level ≤ edgeOf (leftLeast op) ∨ 30 ≤ edgeOf (leftLeast op)) ∨
      op.level < floorOf (rightLeast op) := by
    cases op with
    | binary op => cases op <;> decide
    | logical op => cases op <;> decide
  obtain hlevel | hlt := hlevel
  · calc (joined op left right).depth
        ≤ max (enclosed (leftLeast op) left.strength left.reading).depth
          ((enclosed (rightLeast op) right.strength right.reading).depth + 2) :=
          Expr.depth_attach_le (hr.loose_right op) (hl.grouped_enclosed _) (hr.grouped_enclosed _)
            hedge hleft.edge (hedge'.trans hright.floor) hlevel
      _ ≤ max (left.reading.depth + 1) (right.reading.depth + 3) := by omega
  · rw [joined, Expr.attach_of_lt (hlt.trans_le hright.floor)]
    calc (Expr.graft op (enclosed (leftLeast op) left.strength left.reading)
          (enclosed (rightLeast op) right.strength right.reading)).depth
        ≤ max (enclosed (leftLeast op) left.strength left.reading).depth
          ((enclosed (rightLeast op) right.strength right.reading).depth + 2) :=
          Expr.depth_graft_le (hl.grouped_enclosed _) (hl.near op)
      _ ≤ max (left.reading.depth + 1) (right.reading.depth + 3) := by omega

theorem height_le_heightAll {t : Filter} {ts : List Filter} (h : t ∈ ts) :
    t.height ≤ heightAll ts := by
  induction ts with
  | nil => simp at h
  | cons t' ts ih =>
    rw [heightAll]
    rcases List.mem_cons.1 h with rfl | h
    · exact le_max_left _ _
    · exact (ih h).trans (le_max_right _ _)

theorem depthAll_readingAll_le {ts : List Filter}
    (h : ∀ t ∈ ts, t.reading.depth ≤ 3 * t.height) :
    Expr.depthAll (readingAll ts) ≤ 3 * heightAll ts := by
  rw [readingAll_eq_map]
  apply Expr.depthAll_le
  intro e he
  obtain ⟨t, ht, rfl⟩ := List.mem_map.1 he
  calc t.reading.depth ≤ 3 * t.height := h t ht
    _ ≤ 3 * heightAll ts := Nat.mul_le_mul_left 3 (height_le_heightAll ht)

/-- A filter of a small height is read without nesting too deep. -/
theorem depth_reading_le {t : Filter} (h : Writable t) : t.reading.depth ≤ 3 * t.height := by
  induction h with
  | column hsql hname => simp [reading, Expr.depth]
  | number n => simp [reading, Expr.depth]
  | string text => simp [reading, Expr.depth]
  | boolean b => simp [reading, Expr.depth]
  | null => simp [reading, Expr.depth]
  | unary op h ih =>
    rename_i e
    have hdepth := depth_enclosed_le (strength (.unary op e)) e.strength e.reading
    rw [reading, Expr.depth, height]
    obtain heq | ⟨-, heq⟩ :=
      signOperand_cases op (enclosed (strength (.unary op e)) e.strength e.reading)
    · rw [heq]
      omega
    · rw [heq, Expr.depth]
      omega
  | binary op hl hr ihl ihr =>
    have hdepth := (fits hl).depth_joined_le (fits hr) (.binary op)
    rw [reading_binary, height]
    omega
  | logical op hl hr ihl ihr =>
    have hdepth := (fits hl).depth_joined_le (fits hr) (.logical op)
    rw [reading_logical, height]
    omega
  | isNull negated h ih =>
    rename_i e
    have hdepth := depth_enclosed_le operandStrength e.strength e.reading
    rw [reading, Expr.depth, height]
    omega
  | inList negated h hitems ih ihitems =>
    rename_i e first others
    have hdepth := depth_enclosed_le operandStrength e.strength e.reading
    have hall := depthAll_readingAll_le ihitems
    rw [readingAll, Expr.depthAll] at hall
    rw [reading, Expr.depth, height]
    omega
  | between negated h hl hh ih ihl ihh =>
    rename_i e low high
    have hdepth := depth_enclosed_le operandStrength e.strength e.reading
    have hdepth' := depth_enclosed_le operandStrength low.strength low.reading
    have hdepth'' := depth_enclosed_le operandStrength high.strength high.reading
    rw [reading, Expr.depth, height]
    omega
  | like negated ignoreCase h hp ih ihp =>
    rename_i e pattern
    have hdepth := depth_enclosed_le operandStrength e.strength e.reading
    have hdepth' := depth_enclosed_le operandStrength pattern.strength pattern.reading
    rw [reading, Expr.depth, height]
    omega
  | cast h htype ih =>
    rw [reading, Expr.depth, height]
    omega
  | call hname hargs ih =>
    rename_i name args
    have hall := depthAll_readingAll_le ih
    rw [reading, Expr.depth, height]
    omega

end Filter

end Funnel
