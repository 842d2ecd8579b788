import Funnel.Proofs.Conditions
import Funnel.Proofs.Identifiers
import Funnel.Proofs.Refusals
import Mathlib

/-!
# The Dates of a Statement

A statement restricts its rows to the days of a request by two dates, the first day and the day
after the last.  A date is read back from its text, whatever its year (`Date.read?_text`), and no
day lies between a day and the next one (`Date.next?_covBy`).  So the days that pass are those from
the start of the request to its end (`range_texts_denote_days`).
-/

namespace Funnel

namespace Date

open Sql (takeWhile_run)

/-! ## Numbers -/

theorem ofDigits_eq_ofDigitChars (ds : List Char) : ofDigits ds = Nat.ofDigitChars 10 ds 0 := by
  rfl

/-- Leading zeros do not count. -/
theorem ofDigits_padded (width n : Nat) : ofDigits (padded width n) = n := by
  have hzeros (k : Nat) (ds : List Char) :
      ofDigits (List.replicate k '0' ++ ds) = ofDigits ds := by
    induction k with
    | zero => rfl
    | succ k ih => exact ih
  rw [padded, List.leftpad, hzeros, ofDigits_eq_ofDigitChars,
    Nat.ofDigitChars_toDigits (by decide) (by decide)]

theorem isDigit_of_mem_padded {width n : Nat} {c : Char} (h : c ∈ padded width n) :
    c.isDigit = true := by
  rw [padded, List.leftpad, List.mem_append] at h
  rcases h with h | h
  · rw [List.eq_of_mem_replicate h]
    decide
  · exact isDigit_of_mem_digits h

theorem padded_ne_nil (width n : Nat) : padded width n ≠ [] := by
  have hne : Nat.toDigits 10 n ≠ [] := Nat.toDigits_ne_nil
  simp [padded, List.leftpad, hne]

/-- A number below a power of ten has no more digits than it is padded to. -/
theorem length_padded {width n : Nat} (hwidth : 0 < width) (hn : n < 10 ^ width) :
    (padded width n).length = width := by
  have hlength : (Nat.toDigits 10 n).length ≤ width :=
    (Nat.length_toDigits_le_iff (by decide) hwidth).2 hn
  rw [padded, List.length_leftpad, max_eq_left hlength]

/-- A run of digits is read as a number if nothing behind it goes on with digits, and if it is no
longer than a number may be. -/
theorem readNumber?_append {most : Option Nat} {ds rest : List Char} (hne : ds ≠ [])
    (hds : ∀ c ∈ ds, c.isDigit = true) (hrest : ∀ c ∈ rest.head?, c.isDigit = false)
    (hmost : ∀ k ∈ most, ds.length ≤ k) :
    readNumber? most (ds ++ rest) = some (ofDigits ds, rest) := by
  unfold readNumber?
  cases most with
  | none => simp [takeWhile_run hds hrest, hne]
  | some k =>
    have hlength : ds.length ≤ k := hmost k rfl
    have htake : (ds ++ rest).take k = ds ++ rest.take (k - ds.length) := by
      rw [List.take_append, List.take_of_length_le hlength]
    have hhead : ∀ c ∈ (rest.take (k - ds.length)).head?, c.isDigit = false := by
      intro c hc
      apply hrest
      rw [List.head?_take] at hc
      split_ifs at hc
      · simp at hc
      · exact hc
    simp [htake, takeWhile_run hds hhead, hne]

theorem readNumber?_padded {most : Option Nat} {width n : Nat} {rest : List Char}
    (hrest : ∀ c ∈ rest.head?, c.isDigit = false)
    (hmost : ∀ k ∈ most, (padded width n).length ≤ k) :
    readNumber? most (padded width n ++ rest) = some (n, rest) := by
  rw [readNumber?_append (padded_ne_nil width n) (fun _ ↦ isDigit_of_mem_padded) hrest hmost,
    ofDigits_padded]

/-! ## Texts of dates -/

theorem padded_eq_cons (width n : Nat) :
    ∃ c cs, padded width n = c :: cs ∧ c.isDigit = true := by
  obtain ⟨c, cs, hcs⟩ := List.exists_cons_of_ne_nil (padded_ne_nil width n)
  exact ⟨c, cs, hcs, isDigit_of_mem_padded (hcs ▸ List.mem_cons_self)⟩

theorem readYear?_yearText (year : Int) (rest : List Char) :
    readYear? (yearText year ++ '-' :: rest) = some (year, '-' :: rest) := by
  have hrest : ∀ c ∈ ('-' :: rest).head?, c.isDigit = false := by
    intro c hc
    obtain rfl : '-' = c := by simpa using hc
    decide
  unfold yearText
  split_ifs with hnegative hlong
  · have hyear : -(year.natAbs : Int) = year := by omega
    rw [List.cons_append, readYear?, readNumber?_padded hrest (by simp)]
    simp only [Option.map_some, hyear]
  · have hyear : (year.natAbs : Int) = year := by omega
    rw [List.cons_append, readYear?, readNumber?_padded hrest (by simp)]
    simp only [Option.map_some, hyear]
  · have hyear : (year.natAbs : Int) = year := by omega
    have hlength : (padded 4 year.natAbs).length = 4 := by
      apply length_padded (by decide)
      omega
    have hread : readNumber? (some 4) (padded 4 year.natAbs ++ '-' :: rest) =
        some (year.natAbs, '-' :: rest) := readNumber?_padded hrest (by simp [hlength])
    obtain ⟨c, cs, hcs, hc⟩ := padded_eq_cons 4 year.natAbs
    rw [hcs, List.cons_append] at hread ⊢
    unfold readYear?
    split
    · next heq => cases heq; exact absurd hc (by decide)
    · next heq => cases heq; exact absurd hc (by decide)
    · rw [hread]
      simp only [Option.map_some, hyear]

theorem skipBlanks_cons {c : Char} {cs : List Char} (hc : Text.isBlank c = false) :
    skipBlanks (c :: cs) = c :: cs :=
  Text.dropWhile_isBlank_of_head hc

theorem skipBlanks_padded (width n : Nat) (rest : List Char) :
    skipBlanks (padded width n ++ rest) = padded width n ++ rest := by
  obtain ⟨c, cs, hcs, hc⟩ := padded_eq_cons width n
  rw [hcs]
  exact skipBlanks_cons (Text.isBlank_of_isDigit hc)

theorem skipBlanks_yearText (year : Int) (rest : List Char) :
    skipBlanks (yearText year ++ rest) = yearText year ++ rest := by
  unfold yearText
  split_ifs
  · exact skipBlanks_cons (by decide)
  · exact skipBlanks_cons (by decide)
  · exact skipBlanks_padded 4 year.natAbs rest

theorem afterHyphen?_cons (rest : List Char) : afterHyphen? ('-' :: rest) = some rest := by
  have hhyphen : skipBlanks ('-' :: rest) = '-' :: rest := skipBlanks_cons (by decide)
  simp only [afterHyphen?, hhyphen]

theorem monthLength_le (year : Int) (month : Nat) : monthLength year month ≤ 31 := by
  unfold monthLength
  split
  · split <;> decide
  all_goals decide

/-- A date is read back from its text. -/
theorem read?_text (d : Date) : read? d.text = some d := by
  obtain ⟨year, month, day, hday⟩ := d
  have hmonth : (padded 2 month).length = 2 := by
    apply length_padded (by decide)
    have := hday.2.2.2.1
    omega
  have hlength : (padded 2 day).length = 2 := by
    apply length_padded (by decide)
    have := hday.2.2.2.2.2
    have := monthLength_le year month
    omega
  have hhyphen (rest : List Char) : ∀ c ∈ ('-' :: rest).head?, c.isDigit = false := by
    intro c hc
    obtain rfl : '-' = c := by simpa using hc
    decide
  have hreadDay : readNumber? (some 2) (padded 2 day) = some (day, []) := by
    have h : readNumber? (some 2) (padded 2 day ++ []) = some (day, []) :=
      readNumber?_padded (by simp) (by simp [hlength])
    rwa [List.append_nil] at h
  have hskipDay : skipBlanks (padded 2 day) = padded 2 day := by
    have h := skipBlanks_padded 2 day []
    rwa [List.append_nil] at h
  have hreadMonth : readNumber? (some 2) (padded 2 month ++ '-' :: padded 2 day) =
      some (month, '-' :: padded 2 day) :=
    readNumber?_padded (hhyphen (padded 2 day)) (by simp [hmonth])
  have hchars : (text ⟨year, month, day, hday⟩).toList =
      yearText year ++ '-' :: (padded 2 month ++ '-' :: padded 2 day) := by
    rw [text, String.toList_ofList, chars]
    simp
  rw [read?, hchars, skipBlanks_yearText, readYear?_yearText]
  simp only [bind, Option.bind, afterHyphen?_cons, skipBlanks_padded, hreadMonth, hskipDay,
    hreadDay]
  simp [skipBlanks, ofParts?, hday]

/-! ## The next day -/

theorem le_def {a b : Date} : a ≤ b ↔ ¬ b < a := Iff.rfl

theorem ofParts?_eq_some_iff {year : Int} {month day : Nat} {d : Date} :
    ofParts? year month day = some d ↔ d.year = year ∧ d.month = month ∧ d.day = day := by
  obtain ⟨y, m, k, hday⟩ := d
  unfold ofParts?
  split_ifs with h
  · simp [eq_comm]
  · constructor
    · simp
    · rintro ⟨rfl, rfl, rfl⟩
      exact absurd hday h

/-- A day and the next one have no day between them. -/
theorem next?_covBy {d e : Date} (h : d.next? = some e) : d ⋖ e := by
  have hpos := monthLength_pos d.year (d.month + 1)
  have hdays := d.isDay
  have hbetween (c : Date) : c.year = d.year → c.month = d.month →
      c.day ≤ monthLength d.year d.month := by
    intro hyear hmonth
    rw [← hyear, ← hmonth]
    exact c.isDay.2.2.2.2.2
  simp only [next?, Option.orElse_eq_some, ofParts?_eq_some_iff, ofParts?_eq_none_iff] at h
  constructor
  · rw [lt_def]
    omega
  · intro c hdc hce
    have hc := c.isDay
    have hcd := hbetween c
    rw [lt_def] at hdc hce
    unfold IsDay at hdays hc h
    omega

/-- The days that pass two comparisons are those of a period. -/
theorem le_and_lt_next_iff {first last next : Date} (h : last ⋖ next) (d : Date) :
    first ≤ d ∧ d < next ↔ first ≤ d ∧ d ≤ last := by
  have hnext : d < next ↔ d ≤ last := by
    rw [le_def]
    constructor
    · exact fun hlt hlast ↦ h.2 hlast hlt
    · intro hle
      have hlt := h.1
      rw [lt_def] at hle hlt ⊢
      omega
  rw [hnext]

end Date

/-! ## Texts of ranges -/

section RangeTexts

variable {ι : Type} [FromItem ι]

/-- The text of a predicate that compares a column with two dates. -/
def Predicate.rangeText? : Predicate ι → Option String
  | .within column period => some (Predicate.within column period).sql
  | .condition _ => none

def Select.rangeTexts (q : Select ι) : List String := q.predicates.filterMap Predicate.rangeText?

end RangeTexts

/-- The ranges in the query of a step, those of the query inside it included. -/
def Body.rangeTexts : Body → List String
  | simple q => q.rangeTexts
  | outer q => q.rangeTexts ++ q.items.flatMap fun
    | .daily _ => []
    | .filtered inner => inner.rangeTexts

/-! ### Where they stand -/

/-- A text occurs in another one. -/
def Occurs (t u : String) : Prop := t.toList <:+: u.toList

namespace Occurs

variable {t u v : String}

theorem refl (t : String) : Occurs t t := List.infix_rfl

theorem trans (h : Occurs t u) (h' : Occurs u v) : Occurs t v := List.IsInfix.trans h h'

theorem append_left (h : Occurs t u) (v : String) : Occurs t (v ++ u) := by
  rw [Occurs, String.toList_append]
  exact List.IsInfix.trans h (List.suffix_append _ _).isInfix

theorem append_right (h : Occurs t u) (v : String) : Occurs t (u ++ v) := by
  rw [Occurs, String.toList_append]
  exact List.IsInfix.trans h (List.prefix_append _ _).isInfix

theorem intercalate {separator : String} {texts : List String} (h : t ∈ texts) :
    Occurs t (separator.intercalate texts) := by
  induction texts with
  | nil => simp at h
  | cons u us ih =>
    cases us with
    | nil =>
      obtain rfl := List.mem_singleton.1 h
      rw [String.intercalate_singleton]
      exact refl t
    | cons v vs =>
      rw [String.intercalate_cons_cons]
      rcases List.mem_cons.1 h with rfl | h
      · exact ((refl t).append_right _).append_right _
      · exact (ih h).append_left _

theorem join {texts : List String} (h : t ∈ texts) : Occurs t (String.join texts) := by
  obtain ⟨before, after, rfl⟩ := List.append_of_mem h
  exact ⟨(String.join before).toList, (String.join after).toList, by simp⟩

end Occurs

section Occurs

variable {ι : Type} [FromItem ι] {q : Select ι}

theorem Select.occurs_of_mem_rangeTexts {text : String} (h : text ∈ q.rangeTexts) :
    Occurs text q.sql := by
  obtain ⟨predicate, hmem, hrange⟩ := List.mem_filterMap.1 h
  have htext : predicate.sql = text := by
    cases predicate with
    | within column period => exact Option.some.inj hrange
    | condition text => simp [Predicate.rangeText?] at hrange
  have hsql : text ∈ q.predicates.map Predicate.sql := htext ▸ List.mem_map_of_mem hmem
  exact ((Occurs.intercalate hsql).append_left _).append_right _

theorem Join.occurs_declaration (j : Join ι) : Occurs (FromItem.declaration j.item) j.sql :=
  ((((Occurs.refl _).append_left _).append_right _).append_right _).append_right _

theorem Select.occurs_of_mem_items {item : ι} (h : item ∈ q.items) :
    Occurs (FromItem.declaration item) q.sql := by
  have hfrom : Occurs (FromItem.declaration item) ("SELECT " ++
      ", ".intercalate (q.columns.map Output.sql) ++ " FROM " ++ FromItem.declaration q.base ++
      String.join (q.joins.map Join.sql)) := by
    rcases List.mem_cons.1 h with rfl | h
    · exact ((Occurs.refl _).append_left _).append_right _
    · obtain ⟨join, hjoin, rfl⟩ := List.mem_map.1 h
      have hsql : join.sql ∈ q.joins.map Join.sql := List.mem_map_of_mem hjoin
      exact (join.occurs_declaration.trans (Occurs.join hsql)).append_left _
  exact ((hfrom.append_right _).append_right _).append_right _

end Occurs

theorem Body.occurs_of_mem_rangeTexts {body : Body} {text : String} (h : text ∈ body.rangeTexts) :
    Occurs text body.sql := by
  cases body with
  | simple q => exact Select.occurs_of_mem_rangeTexts h
  | outer q =>
    rcases List.mem_append.1 h with h | h
    · exact Select.occurs_of_mem_rangeTexts h
    · obtain ⟨item, hitem, htext⟩ := List.mem_flatMap.1 h
      cases item with
      | daily t => simp at htext
      | filtered inner =>
        have hinner : Occurs inner.sql (FromItem.declaration (Part.filtered inner)) :=
          ((Occurs.refl _).append_left _).append_right _
        exact ((Select.occurs_of_mem_rangeTexts htext).trans hinner).trans
          (Select.occurs_of_mem_items hitem)

theorem Setting.occurs_of_mem_bodies {s : Setting} {bodies : List Body} {body : Body}
    (h : body ∈ bodies) : Occurs body.sql (s.statementSql bodies) := by
  obtain ⟨i, hi, rfl⟩ := List.getElem_of_mem h
  have hquery : s.stepQuery i bodies[i] ∈ bodies.mapIdx s.stepQuery :=
    List.mem_mapIdx.2 ⟨i, hi, rfl⟩
  have hsql : s.stepSql (s.stepQuery i bodies[i]) ∈ (bodies.mapIdx s.stepQuery).map s.stepSql :=
    List.mem_map_of_mem hquery
  have hstep : Occurs bodies[i].sql (s.stepSql (s.stepQuery i bodies[i])) :=
    (((((Occurs.refl _).append_left _).append_right _).append_right _).append_right _).append_right
      _
  have hsteps : Occurs bodies[i].sql
      (",\n".intercalate ((bodies.mapIdx s.stepQuery).map s.stepSql)) :=
    hstep.trans (Occurs.intercalate hsql)
  exact ((hsteps.append_left _).append_right _).append_right _

/-! ### What they say -/

/-- The query has one range, which is over the period. -/
def Select.RangesOver {ι : Type} [FromItem ι] (q : Select ι) (period : Period) : Prop :=
  ∃ column, q.rangeTexts = [rangeText period column]

namespace Setting

variable {s : Setting} {find : UserSet → Option DailyTable} {collection : String} {f : Filter}

theorem rangesOver_fromEvents (collection : String) (bucket condition : Option String) :
    (s.fromEvents collection bucket condition).RangesOver s.period := by
  refine ⟨s.config.timeColumn, ?_⟩
  cases condition <;> exact congrArg (fun text ↦ [text]) (Predicate.sql_within _ _)

theorem rangesOver_fromTable (t : DailyTable) : (s.fromTable t).RangesOver s.period :=
  ⟨s.config.dateColumn, congrArg (fun text ↦ [text]) (Predicate.sql_within _ _)⟩

theorem rangesOver_fromJoined (base : Source) (day moment : Scalar Source)
    (tables : List DailyTable) (bucket : Option (Scalar Source)) (condition : String) :
    (s.fromJoined base day moment tables bucket condition).RangesOver s.period :=
  ⟨moment.sql, congrArg (fun text ↦ [text]) (Predicate.sql_within _ _)⟩

theorem rangesOver_filtered (f : Filter) (condition : String) (shown : Option String) :
    (s.filtered find collection f condition shown).RangesOver s.period := by
  unfold filtered
  cases coveringTables find collection f with
  | nil => exact rangesOver_fromEvents collection shown (some condition)
  | cons first others =>
    cases (uncoveredColumns find collection f).isEmpty <;> exact rangesOver_fromJoined _ _ _ _ _ _

theorem rangesOver_withDimension (t : DailyTable) (d : String) (inner : Select Source) :
    (s.withDimension t d inner).RangesOver s.period :=
  ⟨(Scalar.column (some (Part.daily t)) s.config.dateColumn).sql,
    congrArg (fun text ↦ [text]) (Predicate.sql_within _ _)⟩

end Setting

/-- There are ranges in the query of a step, and all of them are over the period. -/
def Body.RangesOver (body : Body) (period : Period) : Prop :=
  body.rangeTexts ≠ [] ∧ ∀ text ∈ body.rangeTexts, ∃ column, text = rangeText period column

theorem Body.rangesOver_simple {q : Select Source} {period : Period} (h : q.RangesOver period) :
    (simple q).RangesOver period := by
  obtain ⟨column, hcolumn⟩ := h
  rw [RangesOver, rangeTexts, hcolumn]
  exact ⟨List.cons_ne_nil _ _, fun text htext ↦ ⟨column, List.mem_singleton.1 htext⟩⟩

namespace Setting

variable {s : Setting} {find : UserSet → Option DailyTable} {collection : String} {f : Filter}

theorem rangesOver_outer {t : DailyTable} {d : String} {inner : Select Source}
    (h : inner.RangesOver s.period) :
    (Body.outer (s.withDimension t d inner)).RangesOver s.period := by
  obtain ⟨column, hcolumn⟩ := h
  obtain ⟨column', hcolumn'⟩ := rangesOver_withDimension (s := s) t d inner
  have htexts : (Body.outer (s.withDimension t d inner)).rangeTexts =
      [rangeText s.period column', rangeText s.period column] := by
    rw [Body.rangeTexts, hcolumn']
    simp [Select.items, withDimension, hcolumn]
  rw [Body.RangesOver, htexts]
  refine ⟨List.cons_ne_nil _ _, fun text htext ↦ ?_⟩
  simp only [List.mem_cons, List.not_mem_nil, or_false] at htext
  exact htext.elim (⟨column', ·⟩) (⟨column, ·⟩)

theorem rangesOver_planFiltered : (s.planFiltered find collection f).body.RangesOver s.period := by
  cases hsupported : f.supported with
  | false =>
    rw [planFiltered_of_not_supported hsupported]
    exact Body.rangesOver_simple (rangesOver_fromEvents _ _ _)
  | true =>
    rcases @body_planFiltered_cases s find collection f hsupported with
      ⟨-, hbody⟩ | ⟨d, t, -, -, -, hbody⟩ | ⟨-, hbody⟩
    · rw [hbody]
      exact Body.rangesOver_simple (rangesOver_fromEvents _ _ _)
    · rw [hbody]
      exact rangesOver_outer (rangesOver_filtered f _ none)
    · rw [hbody]
      exact Body.rangesOver_simple (rangesOver_filtered f _ s.dimension)

theorem rangesOver_plan (find : UserSet → Option DailyTable) (step : Step) :
    (s.plan find step).body.RangesOver s.period := by
  unfold plan
  cases step.filter with
  | none =>
    unfold planUnfiltered
    cases find ⟨step.collection, s.dimension⟩ with
    | none => exact Body.rangesOver_simple (rangesOver_fromEvents _ _ _)
    | some t => exact Body.rangesOver_simple (rangesOver_fromTable t)
  | some f => exact rangesOver_planFiltered

end Setting

theorem Request.not_reversed_of_check {config : Config} {r : Request} {period : Period}
    (h : r.check config = .ok period) : r.startDate ≤ r.endDate := by
  have hnone := CompileError.first?_eq_none_iff.1
    (CompileError.first?_ofRequest.trans (congrArg _ (Request.check_eq_ok_iff.1 h).2.1))
  intro hlt
  refine hnone (.request (.reversedDates r.startDate r.endDate)) ?_ ⟨rfl, rfl, hlt⟩
  simp [CompileError.ofRequest]

/-- The ranges of a statement are written with two dates, the first day of the request and the day
after its last day.  Both are read back from their texts, and the days between them are the days of
the request. -/
theorem range_texts_denote_days {config : Config} {registry : Registry} {r : Request} {c : Compiled}
    (h : (compile config registry r).result = .ok c) :
    ∃ next, r.endDate.next? = some next ∧ r.endDate ⋖ next ∧ r.startDate ≤ r.endDate ∧
      Date.read? r.startDate.text = some r.startDate ∧ Date.read? next.text = some next ∧
      (∀ d, r.startDate ≤ d ∧ d < next ↔ r.startDate ≤ d ∧ d ≤ r.endDate) ∧
      let s : Setting := ⟨config, ⟨r.startDate, next⟩, r.dimension⟩
      let find := registry.table r.project config.connectorField
      c.sql = s.statementSql (r.steps.map fun step ↦ (s.plan find step).body) ∧
      ∀ step ∈ r.steps, let texts := (s.plan find step).body.rangeTexts
        texts ≠ [] ∧ ∀ text ∈ texts, Occurs text c.sql ∧ ∃ column : String,
          text = column ++ " >= cast('" ++ r.startDate.text ++ "' as date) AND " ++
            column ++ " < cast('" ++ next.text ++ "' as date)" := by
  obtain ⟨period, hcheck, rfl⟩ := compile_eq_ok_iff.1 h
  obtain ⟨next, hnext, rfl⟩ := Option.map_eq_some_iff.1 (Request.ofDays?_of_check hcheck)
  have hcovBy := Date.next?_covBy hnext
  refine ⟨next, hnext, hcovBy, Request.not_reversed_of_check hcheck, Date.read?_text _,
    Date.read?_text _, Date.le_and_lt_next_iff hcovBy, ?_⟩
  intro s find
  have hsql : (s.compiled find r.steps).sql =
      s.statementSql (r.steps.map fun step ↦ (s.plan find step).body) := by
    rw [Setting.compiled, Setting.plans, List.map_map]
    rfl
  refine ⟨hsql, fun step hstep ↦ ?_⟩
  obtain ⟨hne, hranges⟩ := Setting.rangesOver_plan (s := s) find step
  refine ⟨hne, fun text htext ↦ ⟨?_, hranges text htext⟩⟩
  rw [hsql]
  exact (Body.occurs_of_mem_rangeTexts htext).trans
    (Setting.occurs_of_mem_bodies (List.mem_map_of_mem hstep))

/-- A period that starts in a leap year before the year 0 and ends with the last day that has a year
of four digits. -/
theorem range_texts_of_long_period :
    let registry : Registry := .ofCatalog ⟨[("shop", ⟨["_users_daily_visit_by_device"], []⟩)]⟩
    let start : Date := ⟨-4, 2, 29, by decide⟩
    let next : Date := ⟨10000, 1, 1, by decide⟩
    let filter : Filter := .binary .eq (.column (.plain "country")) (.value (.string "de"))
    let r : Request :=
      ⟨"shop", [⟨"visit", some filter⟩], some "device", start, ⟨9999, 12, 31, by decide⟩⟩
    let s : Setting := ⟨.default, ⟨start, next⟩, some "device"⟩
    (∃ c, (compile .default registry r).result = .ok c) ∧
      start.text = "-0004-02-29" ∧ next.text = "+10000-01-01" ∧
      Date.read? start.text = some start ∧ Date.read? next.text = some next ∧
      (s.plan (registry.table "shop" "_user") ⟨"visit", some filter⟩).body.rangeTexts ≠ [] := by
  intro registry start next filter r s
  have hcheck : Request.check .default r = .ok ⟨start, next⟩ := by decide
  have hc := compile_of_check registry hcheck
  obtain ⟨next', hnext, -, -, hstart, hread, -, -, hranges⟩ := range_texts_denote_days hc
  have hlast : r.endDate.next? = some next := by decide
  obtain rfl := Option.some.inj (hlast.symm.trans hnext)
  exact ⟨⟨_, hc⟩, by decide +kernel, by decide +kernel, hstart, hread,
    (hranges _ List.mem_cons_self).1⟩

end Funnel
