/-!
# Numerals

The spellings of numbers: digits, perhaps a point among or around them, perhaps a power of ten
behind them.  `Numeral.read?` takes the longest numeral off the front of a text;
`Numeral.read?_append` says that it takes all of a numeral whatever stands behind it, as long as
that does not go on with it.
-/

namespace Funnel.Sql

section Run

variable {p : Char → Bool} {run rest : List Char}

/-- A run of characters of one kind ends in front of one of another kind. -/
theorem takeWhile_run (hrun : ∀ c ∈ run, p c = true) (hrest : ∀ c ∈ rest.head?, p c = false) :
    (run ++ rest).takeWhile p = run := by
  rw [List.takeWhile_append_of_pos hrun]
  cases rest with
  | nil => simp
  | cons c rest => simp [hrest c rfl]

theorem dropWhile_run (hrun : ∀ c ∈ run, p c = true) (hrest : ∀ c ∈ rest.head?, p c = false) :
    (run ++ rest).dropWhile p = rest := by
  rw [List.dropWhile_append_of_pos hrun]
  cases rest with
  | nil => simp
  | cons c rest => simp [hrest c rfl]

end Run

namespace Numeral

/-! ## Spellings -/

def AllDigits (cs : List Char) : Prop := ∀ c ∈ cs, c.isDigit = true

/-- Digits with at most one point among or around them. -/
def IsMantissa (cs : List Char) : Prop :=
  ∃ whole fraction, AllDigits whole ∧ AllDigits fraction ∧ whole ++ fraction ≠ [] ∧
    (cs = whole ++ '.' :: fraction ∨ cs = whole ∧ fraction = [])

/-- What may stand before the digits of a power of ten, longer marks first. -/
def powerMarks : List (List Char) :=
  [['e', '+'], ['e', '-'], ['E', '+'], ['E', '-'], ['e'], ['E']]

/-- A power of ten, or nothing. -/
def IsPower (cs : List Char) : Prop :=
  cs = [] ∨ ∃ mark digits, mark ∈ powerMarks ∧ digits ≠ [] ∧ AllDigits digits ∧ cs = mark ++ digits

def IsSpelling (cs : List Char) : Prop :=
  ∃ mantissa power, IsMantissa mantissa ∧ IsPower power ∧ cs = mantissa ++ power

/-- Digits are a numeral. -/
theorem isSpelling_of_allDigits {cs : List Char} (hnil : cs ≠ []) (h : AllDigits cs) :
    IsSpelling cs := by
  have hmantissa : IsMantissa cs := ⟨cs, [], h, by simp [AllDigits], by simpa, .inr ⟨rfl, rfl⟩⟩
  exact ⟨cs, [], hmantissa, .inl rfl, by simp⟩

/-! ## Reading -/

/-- Digits with at most one point among or around them, and the rest. -/
def mantissa (cs : List Char) : List Char × List Char :=
  let whole := cs.takeWhile Char.isDigit
  match cs.dropWhile Char.isDigit with
  | '.' :: cs => (whole ++ '.' :: cs.takeWhile Char.isDigit, cs.dropWhile Char.isDigit)
  | cs => (whole, cs)

/-- A power of ten, if a digit follows its mark, and the rest. -/
def power (cs : List Char) : List Char × List Char :=
  match powerMarks.find? (·.isPrefixOf cs) with
  | none => ([], cs)
  | some mark =>
    let rest := cs.drop mark.length
    if rest.takeWhile Char.isDigit = [] then ([], cs)
    else (mark ++ rest.takeWhile Char.isDigit, rest.dropWhile Char.isDigit)

/-- The numeral at the front of a text, and the rest. -/
def split (cs : List Char) : List Char × List Char :=
  let (digits, cs) := mantissa cs
  let (power, cs) := power cs
  (digits ++ power, cs)

/-! ## Reading a numeral back -/

/-- What may not stand behind a numeral. -/
def continues (c : Char) : Bool := c.isDigit || c == '.' || c == 'e' || c == 'E'

theorem mantissa_append {cs rest : List Char} (h : IsMantissa cs)
    (hr : ∀ c ∈ rest.head?, c.isDigit = false ∧ c ≠ '.') : mantissa (cs ++ rest) = (cs, rest) := by
  obtain ⟨whole, fraction, hw, hf, -, rfl | ⟨rfl, -⟩⟩ := h
  · have hpoint : ∀ c ∈ ('.' :: (fraction ++ rest)).head?, c.isDigit = false := by simp
    have hrest : ∀ c ∈ rest.head?, c.isDigit = false := fun c hc ↦ (hr c hc).1
    rw [mantissa, List.append_assoc, List.cons_append]
    simp only [takeWhile_run hw hpoint, dropWhile_run hw hpoint, takeWhile_run hf hrest,
      dropWhile_run hf hrest]
  · have hrest : ∀ c ∈ rest.head?, c.isDigit = false := fun c hc ↦ (hr c hc).1
    rw [mantissa]
    simp only [takeWhile_run hw hrest, dropWhile_run hw hrest]
    cases rest with
    | nil => rfl
    | cons c rest =>
      have hc : c ≠ '.' := (hr c rfl).2
      simp [hc]

theorem power_of_not_mark {rest : List Char} (hr : ∀ c ∈ rest.head?, c ≠ 'e' ∧ c ≠ 'E') :
    power rest = ([], rest) := by
  cases rest with
  | nil => rfl
  | cons c rest =>
    obtain ⟨he, hE⟩ := hr c rfl
    simp [power, powerMarks, List.isPrefixOf, he.symm, hE.symm]

theorem power_append {cs rest : List Char} (h : IsPower cs)
    (hr : ∀ c ∈ rest.head?, continues c = false) : power (cs ++ rest) = (cs, rest) := by
  obtain rfl | ⟨mark, digits, hm, hne, hd, rfl⟩ := h
  · refine power_of_not_mark fun c hc ↦ ?_
    have := hr c hc
    simp only [continues, Bool.or_eq_false_iff, beq_eq_false_iff_ne] at this
    exact ⟨this.1.2, this.2⟩
  · have hrest : ∀ c ∈ rest.head?, c.isDigit = false := fun c hc ↦ by
      have := hr c hc
      simp only [continues, Bool.or_eq_false_iff] at this
      exact this.1.1.1
    obtain ⟨c, digits, rfl⟩ := List.exists_cons_of_ne_nil hne
    have hc : c.isDigit = true := hd c List.mem_cons_self
    have hplus : '+' ≠ c := by rintro rfl; simp at hc
    have hminus : '-' ≠ c := by rintro rfl; simp at hc
    have hfind : powerMarks.find? (·.isPrefixOf (mark ++ c :: digits ++ rest)) = some mark := by
      simp only [powerMarks, List.mem_cons, List.not_mem_nil, or_false] at hm
      rcases hm with rfl | rfl | rfl | rfl | rfl | rfl <;>
        simp [powerMarks, List.isPrefixOf, hplus, hminus]
    have hdrop : (mark ++ c :: digits ++ rest).drop mark.length = c :: digits ++ rest := by simp
    rw [power, hfind]
    simp only [hdrop, takeWhile_run hd hrest, dropWhile_run hd hrest]
    simp

theorem stops_append {power rest : List Char} (hp : IsPower power)
    (hr : ∀ c ∈ rest.head?, continues c = false) :
    ∀ c ∈ (power ++ rest).head?, c.isDigit = false ∧ c ≠ '.' := by
  obtain rfl | ⟨mark, digits, hmark, -, -, rfl⟩ := hp
  · intro c hc
    have := hr c hc
    simp only [continues, Bool.or_eq_false_iff, beq_eq_false_iff_ne] at this
    exact ⟨this.1.1.1, this.1.1.2⟩
  · simp only [powerMarks, List.mem_cons, List.not_mem_nil, or_false] at hmark
    rcases hmark with rfl | rfl | rfl | rfl | rfl | rfl <;> simp

/-- A numeral is taken off the front of a text that does not go on with it. -/
theorem split_append {cs rest : List Char} (h : IsSpelling cs)
    (hr : ∀ c ∈ rest.head?, continues c = false) : split (cs ++ rest) = (cs, rest) := by
  obtain ⟨digits, tail, hm, hp, rfl⟩ := h
  rw [split, List.append_assoc]
  simp only [mantissa_append hm (stops_append hp hr), power_append hp hr]

/-! ## Reading nothing else -/

theorem allDigits_takeWhile (cs : List Char) : AllDigits (cs.takeWhile Char.isDigit) :=
  fun _ hc ↦ List.all_eq_true.1 List.all_takeWhile _ hc

/-- What is taken is a numeral, unless there is no digit around the point at the front. -/
theorem isMantissa_mantissa {cs : List Char} (hnil : (mantissa cs).1 ≠ [])
    (hpoint : (mantissa cs).1 ≠ ['.']) : IsMantissa (mantissa cs).1 := by
  have hw := allDigits_takeWhile cs
  rw [mantissa] at hnil hpoint ⊢
  revert hnil hpoint
  split
  · next rest hrest =>
    intro _ hpoint
    refine ⟨_, _, hw, allDigits_takeWhile rest, fun h ↦ hpoint ?_, .inl rfl⟩
    obtain ⟨h₁, h₂⟩ := List.append_eq_nil_iff.1 h
    rw [h₁, h₂, List.nil_append]
  · intro hnil _
    exact ⟨_, [], hw, by simp [AllDigits], by simpa using hnil, .inr ⟨rfl, rfl⟩⟩

theorem isPower_power (cs : List Char) : IsPower (power cs).1 := by
  rw [power]
  split
  · exact .inl rfl
  · next mark hmark =>
    by_cases hne : (cs.drop mark.length).takeWhile Char.isDigit = []
    · exact .inl (by simp [hne])
    · refine .inr ⟨mark, _, List.mem_of_find?_eq_some hmark, hne, allDigits_takeWhile _, ?_⟩
      simp [hne]

theorem IsMantissa.ne {cs : List Char} (h : IsMantissa cs) : cs ≠ [] ∧ cs ≠ ['.'] := by
  obtain ⟨whole, fraction, hw, -, hne, rfl | ⟨rfl, rfl⟩⟩ := h
  · refine ⟨by simp, fun h ↦ hne ?_⟩
    have := congrArg List.length h
    simp only [List.length_append, List.length_cons, List.length_nil] at this
    exact List.append_eq_nil_iff.2 ⟨List.eq_nil_of_length_eq_zero (by omega),
      List.eq_nil_of_length_eq_zero (by omega)⟩
  · refine ⟨by simpa using hne, ?_⟩
    rintro rfl
    exact absurd (hw '.' List.mem_cons_self) (by decide)

/-- A text begins with a numeral exactly when it begins with a digit or with a point before one. -/
def begins (cs : List Char) : Bool := (mantissa cs).1 != [] && (mantissa cs).1 != ['.']

theorem isSpelling_split {cs : List Char} (h : begins cs = true) : IsSpelling (split cs).1 := by
  simp only [begins, Bool.and_eq_true, bne_iff_ne] at h
  exact ⟨_, _, isMantissa_mantissa h.1 h.2, isPower_power _, rfl⟩

theorem begins_append {cs rest : List Char} (h : IsSpelling cs)
    (hr : ∀ c ∈ rest.head?, continues c = false) : begins (cs ++ rest) = true := by
  obtain ⟨digits, tail, hm, hp, rfl⟩ := h
  rw [begins, List.append_assoc, mantissa_append hm (stops_append hp hr)]
  simpa using hm.ne

end Numeral

/-! ## Numerals -/

/-- The spelling of a number. -/
structure Numeral where
  text : String
  spelled : Numeral.IsSpelling text.toList
deriving DecidableEq, Repr

namespace Numeral

/-- The numeral at the front of a text, and the rest; there is none without a digit. -/
def read? (cs : List Char) : Option (Numeral × List Char) :=
  if h : begins cs = true then
    some (⟨String.ofList (split cs).1, by simpa using isSpelling_split h⟩, (split cs).2)
  else none

theorem read?_append (n : Numeral) {rest : List Char}
    (hr : ∀ c ∈ rest.head?, continues c = false) :
    read? (n.text.toList ++ rest) = some (n, rest) := by
  rw [read?, dif_pos (begins_append n.spelled hr)]
  simp [split_append n.spelled hr]

end Numeral

end Funnel.Sql
