import Funnel.Proofs.Scoping
import Mathlib

/-!
# Tables with One Name

The name of a table is the name of its collection, followed by `_by_` and the name of a column if
there is a breakdown.  The names are not escaped, so a collection may be named like a collection
with a breakdown, and one table is then found for both.  This happens in three ways
(`UserSet.Overlaps`) and in no other (`tableName_eq_iff`, `found_table_eq_iff`), and never to
collections in whose names no separator begins.
-/

namespace Funnel

namespace UserSet

/-! ## Names that run together -/

/-- What follows the collection in the name of a table. -/
def breakdownPart : Option String → String
  | none => ""
  | some column => "_by_" ++ column

theorem tableName_eq_append (connector : String) (set : UserSet) :
    set.tableName connector =
      connector ++ "s_daily_" ++ (set.collection ++ breakdownPart set.breakdown) := by
  unfold tableName breakdownPart
  cases set.breakdown with
  | none => simp
  | some column => simp [String.append_assoc]

theorem tableName_eq_tableName_iff {connector : String} {a b : UserSet} :
    a.tableName connector = b.tableName connector ↔
      a.collection ++ breakdownPart a.breakdown = b.collection ++ breakdownPart b.breakdown := by
  rw [tableName_eq_append, tableName_eq_append, String.append_right_inj]

/-- The collection of the second set is named like that of the first one with a part of its
breakdown, and what is left of the name is the same. -/
inductive Overlaps : UserSet → UserSet → Prop
  /-- The second collection takes the breakdown as a whole. -/
  | whole (collection column : String) :
    Overlaps ⟨collection, some column⟩ ⟨collection ++ "_by_" ++ column, none⟩
  /-- The name of the column has a separator in it. -/
  | inside (collection front back : String) :
    Overlaps ⟨collection, some (front ++ "_by_" ++ back)⟩
      ⟨collection ++ "_by_" ++ front, some back⟩
  /-- Two separators share a character: `_by_by_` has one at either end. -/
  | shared (collection column : String) :
    Overlaps ⟨collection, some ("by_" ++ column)⟩ ⟨collection ++ "_by", some column⟩

theorem Overlaps.tableName_eq {a b : UserSet} (h : a.Overlaps b) (connector : String) :
    a.tableName connector = b.tableName connector := by
  rw [tableName_eq_tableName_iff]
  cases h with
  | whole collection column => simp [breakdownPart, String.append_assoc]
  | inside collection front back => simp [breakdownPart, String.append_assoc]
  | shared collection column =>
    have hseparators : "_by_" ++ ("by_" ++ column) = "_by" ++ ("_by_" ++ column) := by
      simp only [← String.append_assoc]
      rfl
    rw [breakdownPart, breakdownPart, hseparators, String.append_assoc]

/-- A separator stands in front of a text, and again behind some first part of the whole. -/
theorem separator_append_cases {x w y : List Char}
    (h : "_by_".toList ++ x = w ++ ("_by_".toList ++ y)) :
    (w = [] ∧ x = y) ∨ (∃ v, w = "_by_".toList ++ v ∧ x = v ++ ("_by_".toList ++ y)) ∨
      (w = "_by".toList ∧ x = "by_".toList ++ y) := by
  have hseparator : "_by_".toList = ['_', 'b', 'y', '_'] := rfl
  rw [hseparator] at h ⊢
  match w with
  | [] => exact .inl ⟨rfl, by simpa using h⟩
  | [_] => simp at h
  | [_, _] => simp at h
  | [_, _, _] =>
    simp only [List.cons_append, List.nil_append, List.cons.injEq] at h
    obtain ⟨rfl, rfl, rfl, -, hx⟩ := h
    exact .inr (.inr ⟨rfl, hx⟩)
  | _ :: _ :: _ :: _ :: v =>
    simp only [List.cons_append, List.nil_append, List.cons.injEq] at h
    obtain ⟨rfl, rfl, rfl, rfl, hx⟩ := h
    exact .inr (.inl ⟨v, rfl, hx⟩)

/-- If the name of the second collection goes on where that of the first one ends, the sets are the
same or overlap. -/
theorem eq_or_overlaps_of_breakdownPart (collection : String) {w : List Char}
    {x y : Option String}
    (h : (breakdownPart x).toList = w ++ (breakdownPart y).toList) :
    (w = [] ∧ x = y) ∨
      Overlaps ⟨collection, x⟩ ⟨collection ++ String.ofList w, y⟩ := by
  match x, y with
  | none, none => exact .inl ⟨by simpa [breakdownPart] using h, rfl⟩
  | none, some y => simp [breakdownPart] at h
  | some x, none =>
    have hw : String.ofList w = "_by_" ++ x := by
      rw [← String.toList_inj]
      simpa [breakdownPart] using h.symm
    rw [hw, ← String.append_assoc]
    exact .inr (.whole collection x)
  | some x, some y =>
    rw [breakdownPart, breakdownPart, String.toList_append, String.toList_append] at h
    rcases separator_append_cases h with ⟨hw, hx⟩ | ⟨v, rfl, hx⟩ | ⟨rfl, hx⟩
    · exact .inl ⟨hw, congrArg some (String.toList_injective hx)⟩
    · have hcolumn : x = String.ofList v ++ "_by_" ++ y := by
        rw [← String.toList_inj]
        simpa using hx
      have hcollection : collection ++ String.ofList ("_by_".toList ++ v) =
          collection ++ "_by_" ++ String.ofList v := by
        rw [← String.toList_inj]
        simp
      rw [hcolumn, hcollection]
      exact .inr (.inside collection (String.ofList v) y)
    · have hcolumn : x = "by_" ++ y := by
        rw [← String.toList_inj]
        simpa using hx
      rw [hcolumn]
      exact .inr (.shared collection y)

/-- Two sets have one table name only if they are the same or run together. -/
theorem tableName_eq_iff {connector : String} {a b : UserSet} :
    a.tableName connector = b.tableName connector ↔ a = b ∨ a.Overlaps b ∨ b.Overlaps a := by
  constructor
  · intro h
    obtain ⟨c, x⟩ := a
    obtain ⟨d, y⟩ := b
    have hlists := congrArg String.toList (tableName_eq_tableName_iff.1 h)
    rw [String.toList_append, String.toList_append, List.append_eq_append_iff] at hlists
    -- One of the two collections goes on where the other one ends.
    rcases hlists with ⟨w, hd, hx⟩ | ⟨w, hc, hy⟩
    · obtain rfl : d = c ++ String.ofList w := by
        rw [← String.toList_inj]
        simpa using hd
      rcases eq_or_overlaps_of_breakdownPart c hx with ⟨rfl, rfl⟩ | hoverlaps
      · exact .inl (by simp)
      · exact .inr (.inl hoverlaps)
    · obtain rfl : c = d ++ String.ofList w := by
        rw [← String.toList_inj]
        simpa using hc
      rcases eq_or_overlaps_of_breakdownPart d hy with ⟨rfl, rfl⟩ | hoverlaps
      · exact .inl (by simp)
      · exact .inr (.inr hoverlaps)
  · rintro (rfl | h | h)
    · rfl
    · exact h.tableName_eq connector
    · exact (h.tableName_eq connector).symm

/-- No separator begins in the name of the collection. -/
def HasPlainCollection (set : UserSet) : Prop :=
  ¬ "_by_".toList <:+: (set.collection ++ "_").toList

instance (set : UserSet) : Decidable set.HasPlainCollection := inferInstanceAs (Decidable (¬ _))

theorem Overlaps.not_hasPlainCollection {a b : UserSet} (h : a.Overlaps b) :
    ¬ b.HasPlainCollection := by
  refine not_not_intro ?_
  cases h with
  | whole collection column =>
    exact ⟨collection.toList, column.toList ++ ['_'], by simp⟩
  | inside collection front back =>
    exact ⟨collection.toList, front.toList ++ ['_'], by simp⟩
  | shared collection column =>
    exact ⟨collection.toList, [], by simp⟩

end UserSet

/-! ## Tables that are found -/

/-- A table is found by its name, whatever set has this name. -/
theorem Registry.table_congr (registry : Registry) (project : String) {connector : String}
    {a b : UserSet} (h : a.tableName connector = b.tableName connector) :
    registry.table project connector a = registry.table project connector b := by
  simp only [Registry.table, h]

theorem Listings.table_of_mem_findAll {registry : Registry} {project connector : String}
    {sets : List UserSet} {set : UserSet} {t : DailyTable}
    (h : (set, some t) ∈ (findAll registry project connector sets .unread).1) :
    registry.table project connector set = some t := by
  have hunread : Settled registry project unread := settled_unread
  obtain ⟨l, -, hfind⟩ := findAll_of_settled connector sets hunread
  rw [hfind] at h
  obtain ⟨other, -, heq⟩ := List.mem_map.1 h
  obtain ⟨rfl, ht⟩ := Prod.mk.inj heq
  exact ht

/-- Two look-ups that succeed find one table exactly if they are for one set or for sets whose names
run together.  For different sets whose collections have no separator in their names they find
different tables. -/
theorem found_table_eq_iff {registry : Registry} {project connector : String}
    {sets : List UserSet} {a b : UserSet} {t u : DailyTable}
    (ha : (a, some t) ∈ (Listings.findAll registry project connector sets .unread).1)
    (hb : (b, some u) ∈ (Listings.findAll registry project connector sets .unread).1) :
    (t = u ↔ a = b ∨ a.Overlaps b ∨ b.Overlaps a) ∧
      (a.HasPlainCollection → b.HasPlainCollection → a ≠ b → t ≠ u) := by
  have hta := Listings.table_of_mem_findAll ha
  have hub := Listings.table_of_mem_findAll hb
  have hfinds := Setting.findsByName_table registry project connector
  have hnames : a.tableName connector = b.tableName connector ↔
      a = b ∨ a.Overlaps b ∨ b.Overlaps a := UserSet.tableName_eq_iff
  have hiff : t = u ↔ a = b ∨ a.Overlaps b ∨ b.Overlaps a := by
    rw [← hnames]
    constructor
    · rintro rfl
      rw [← hfinds a t hta, ← hfinds b t hub]
    · intro hname
      rw [Registry.table_congr registry project hname, hub] at hta
      exact (Option.some.inj hta).symm
  refine ⟨hiff, fun hplain hplain' hne htu ↦ ?_⟩
  rcases hiff.1 htu with heq | hoverlaps | hoverlaps
  · exact hne heq
  · exact hoverlaps.not_hasPlainCollection hplain'
  · exact hoverlaps.not_hasPlainCollection hplain

/-- Three sets, the first two of which have one table. -/
theorem found_tables_of_three_sets :
    let registry : Registry := .ofCatalog ⟨[("shop",
      ⟨["_users_daily_visit_by_by_region"], ["_users_daily_visit_by_plan"]⟩)]⟩
    let a : UserSet := ⟨"visit", some "by_region"⟩
    let b : UserSet := ⟨"visit_by", some "region"⟩
    let d : UserSet := ⟨"visit", some "plan"⟩
    ∃ t u v, (Listings.findAll registry "shop" "_user" [a, b, d] .unread).1 =
        [(a, some t), (b, some u), (d, some v)] ∧
      a.Overlaps b ∧ t = u ∧ a.HasPlainCollection ∧ d.HasPlainCollection ∧ t ≠ v := by
  intro registry a b d
  let t : DailyTable := ⟨.continuous, "_users_daily_visit_by_by_region"⟩
  let v : DailyTable := ⟨.materialized, "_users_daily_visit_by_plan"⟩
  have hfound : (Listings.findAll registry "shop" "_user" [a, b, d] .unread).1 =
      [(a, some t), (b, some t), (d, some v)] := by decide +kernel
  have ha : (a, some t) ∈ (Listings.findAll registry "shop" "_user" [a, b, d] .unread).1 := by
    simp [hfound]
  have hd : (d, some v) ∈ (Listings.findAll registry "shop" "_user" [a, b, d] .unread).1 := by
    simp [hfound]
  have hplain : a.HasPlainCollection := by decide +kernel
  have hplain' : d.HasPlainCollection := by decide +kernel
  exact ⟨t, t, v, hfound, .shared "visit" "region", rfl, hplain, hplain',
    (found_table_eq_iff ha hd).2 hplain hplain' (by decide)⟩

/-- A collection that is named like another one with a breakdown has the table of the breakdown. -/
theorem one_table_for_two_sets :
    ¬ ∀ (registry : Registry) (project connector : String) (sets : List UserSet) (a b : UserSet)
      (t u : DailyTable),
      (a, some t) ∈ (Listings.findAll registry project connector sets .unread).1 →
      (b, some u) ∈ (Listings.findAll registry project connector sets .unread).1 →
      a ≠ b → t ≠ u := by
  intro h
  let registry : Registry := .ofCatalog ⟨[("shop", ⟨["_users_daily_visit_by_region"], []⟩)]⟩
  let a : UserSet := ⟨"visit", some "region"⟩
  let b : UserSet := ⟨"visit_by_region", none⟩
  let t : DailyTable := ⟨.continuous, "_users_daily_visit_by_region"⟩
  have hfound : (Listings.findAll registry "shop" "_user" [a, b] .unread).1 =
      [(a, some t), (b, some t)] := by decide +kernel
  exact h registry "shop" "_user" [a, b] a b t t (by simp [hfound]) (by simp [hfound])
    (by decide) rfl

end Funnel
