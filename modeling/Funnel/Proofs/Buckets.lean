import Funnel.Proofs.Columns
import Mathlib

/-!
# The Buckets of a Step

With a dimension, the count of a step ranks the values of the dimension by their numbers of users,
writes the same label for all values below a limit, and sums up the numbers under each label.  Its
text is that of a query whose result can be computed (`Setting.bucketsSql_eq_sql`).  The top values
are counted apart and the rest together exactly if there is no rest or no top value is called like
it (`bucket_rows_perm_iff`).
-/

namespace Funnel

/-! ## Sums by key -/

section Sums

variable {α κ : Type} [DecidableEq κ]

/-- For each key of some elements, the sum of the weights of those that have it. -/
def groupSums (key : α → κ) (weight : α → Nat) (xs : List α) : List (κ × Nat) :=
  (xs.map key).dedup.map fun k ↦ (k, ((xs.filter fun x ↦ key x = k).map weight).sum)

variable {key : α → κ} {weight : α → Nat} {xs ys : List α}

/-- There is at most one sum for each of some keys that cover all elements. -/
theorem length_groupSums_le {keys : List κ} (h : xs.map key ⊆ keys) :
    (groupSums key weight xs).length ≤ keys.length := by
  rw [groupSums, List.length_map]
  have hkeys : (xs.map key).dedup ⊆ keys := fun k hk ↦ h (List.mem_dedup.1 hk)
  exact (List.subperm_of_subset (List.nodup_dedup _) hkeys).length_le

theorem mem_groupSums {k : κ} {n : Nat} :
    (k, n) ∈ groupSums key weight xs ↔
      k ∈ xs.map key ∧ ((xs.filter fun x ↦ key x = k).map weight).sum = n := by
  rw [groupSums, List.mem_map, ← List.mem_dedup]
  constructor
  · rintro ⟨k', hk', heq⟩
    obtain ⟨rfl, rfl⟩ := Prod.mk.inj heq
    exact ⟨hk', rfl⟩
  · rintro ⟨hk, rfl⟩
    exact ⟨k, hk, rfl⟩

/-- Each weight counts for one of some keys that cover all elements. -/
theorem sum_filter_key (keys : Finset κ) (h : ∀ x ∈ xs, key x ∈ keys) :
    ∑ k ∈ keys, ((xs.filter fun x ↦ key x = k).map weight).sum = (xs.map weight).sum := by
  induction xs with
  | nil => simp
  | cons x xs ih =>
    have hrest := ih fun y hy ↦ h y (List.mem_cons_of_mem x hy)
    have hsplit (k : κ) : (((x :: xs).filter fun y ↦ key y = k).map weight).sum =
        (if key x = k then weight x else 0) + ((xs.filter fun y ↦ key y = k).map weight).sum := by
      by_cases hx : key x = k <;> simp [hx]
    simp only [hsplit, Finset.sum_add_distrib, hrest, Finset.sum_ite_eq, h x List.mem_cons_self,
      if_true, List.map_cons, List.sum_cons]

/-- Sorting weights by key loses nothing. -/
theorem sum_groupSums : ((groupSums key weight xs).map Prod.snd).sum = (xs.map weight).sum := by
  have hkeys : ∀ x ∈ xs, key x ∈ (xs.map key).dedup.toFinset := by
    intro x hx
    rw [List.mem_toFinset, List.mem_dedup]
    exact List.mem_map_of_mem hx
  have hall : _ = (xs.map weight).sum := sum_filter_key _ hkeys
  rw [List.sum_toFinset _ (List.nodup_dedup _)] at hall
  simpa only [groupSums, List.map_map, Function.comp_def] using hall

theorem filter_key_eq_singleton (h : (xs.map key).Nodup) {x : α} (hx : x ∈ xs) :
    (xs.filter fun y ↦ key y = key x) = [x] := by
  have hmem (y : α) : (y ∈ xs.filter fun y ↦ key y = key x) ↔ y ∈ [x] := by
    rw [List.mem_filter, decide_eq_true_eq, List.mem_singleton]
    constructor
    · rintro ⟨hy, heq⟩
      exact List.inj_on_of_nodup_map h hy hx heq
    · rintro rfl
      exact ⟨hx, rfl⟩
  have hnodup := (List.Nodup.of_map key h).filter fun y ↦ decide (key y = key x)
  exact List.perm_singleton.1 ((List.perm_ext_iff_of_nodup hnodup (List.nodup_singleton x)).2 hmem)

/-- Elements with different keys are sums of their own. -/
theorem groupSums_of_nodup (h : (xs.map key).Nodup) :
    groupSums key weight xs = xs.map fun x ↦ (key x, weight x) := by
  rw [groupSums, h.dedup, List.map_map]
  refine List.map_congr_left fun x hx ↦ ?_
  simp only [Function.comp_apply, filter_key_eq_singleton h hx, List.map_singleton,
    List.sum_singleton]

/-- Elements with one key are one sum. -/
theorem groupSums_of_forall_eq {k : κ} (hne : xs ≠ []) (h : ∀ x ∈ xs, key x = k) :
    groupSums key weight xs = [(k, (xs.map weight).sum)] := by
  have hkeys : xs.map key = List.replicate xs.length k :=
    List.eq_replicate_iff.2 ⟨List.length_map key, by simpa using h⟩
  have hfilter : (xs.filter fun x ↦ key x = k) = xs := List.filter_eq_self.2 (by simpa using h)
  rw [groupSums, hkeys, List.replicate_dedup (by simpa using hne), List.map_singleton, hfilter]

theorem filter_key_eq_nil {k : κ} (h : k ∉ xs.map key) : (xs.filter fun x ↦ key x = k) = [] := by
  rw [List.filter_eq_nil_iff]
  intro x hx heq
  exact h (List.mem_map.2 ⟨x, hx, by simpa using heq⟩)

/-- Elements without a common key are summed apart. -/
theorem groupSums_append (h : (xs.map key).Disjoint (ys.map key)) :
    groupSums key weight (xs ++ ys) = groupSums key weight xs ++ groupSums key weight ys := by
  rw [groupSums, List.map_append, h.dedup_append, List.map_append]
  congr 1
  · refine List.map_congr_left fun k hk ↦ ?_
    rw [List.filter_append, filter_key_eq_nil (h (List.mem_dedup.1 hk)), List.append_nil]
  · refine List.map_congr_left fun k hk ↦ ?_
    rw [List.filter_append, filter_key_eq_nil (h.symm (List.mem_dedup.1 hk)), List.nil_append]

/-- Keys that are written down in different ways are still different keys. -/
theorem groupSums_comp {κ' : Type} [DecidableEq κ'] {f : κ → κ'} (hf : Function.Injective f) :
    groupSums (fun x ↦ f (key x)) weight xs =
      (groupSums key weight xs).map fun (k, n) ↦ (f k, n) := by
  have hkeys : xs.map (fun x ↦ f (key x)) = (xs.map key).map f := by simp
  rw [groupSums, hkeys, List.dedup_map_of_injective hf, groupSums, List.map_map, List.map_map]
  simp only [Function.comp_def, hf.eq_iff]

theorem groupSums_map {β : Type} (g : β → α) (zs : List β) :
    groupSums key weight (zs.map g) = groupSums (fun z ↦ key (g z)) (fun z ↦ weight (g z)) zs := by
  simp only [groupSums, List.filter_map, List.map_map, Function.comp_def]

end Sums

/-! ## Ranked values -/

/-- The columns of ranked values that hold numbers. -/
inductive RankedNumber
  | stepIndex
  | users
  | rank
deriving DecidableEq, Repr

/-- The columns of ranked values that hold texts. -/
inductive RankedText
  | step
  | value
deriving DecidableEq, Repr

def RankedNumber.name : RankedNumber → String
  | stepIndex => "step_index"
  | users => "user_count"
  | rank => "bucket_rank"

def RankedText.name : RankedText → String
  | step => "step"
  | value => bucketColumn

/-- One value of the dimension in a step. -/
structure RankedRow where
  stepIndex : Nat
  step : String
  value : String
  users : Nat
  rank : Nat
deriving DecidableEq, Repr

def RankedRow.number (r : RankedRow) : RankedNumber → Nat
  | .stepIndex => r.stepIndex
  | .users => r.users
  | .rank => r.rank

def RankedRow.text (r : RankedRow) : RankedText → String
  | .step => r.step
  | .value => r.value

/-- The label of the values that have no row of their own. -/
def restLabel : String := "Others"

/-- The name of a step in a result. -/
def stepLabel (i : Nat) : String := "Step " ++ toString (i + 1)

/-- The values of a dimension with their numbers of users, in the order of their ranks.  Values with
equally many users may stand in any order. -/
structure Ranking where
  counts : List (String × Nat)
  distinct : (counts.map Prod.fst).Nodup
  descending : counts.Pairwise fun p q ↦ q.2 ≤ p.2

namespace Ranking

variable (ranking : Ranking) (limit : Nat)

/-- The ranked values of a step; ranks count from 1. -/
def table (i : Nat) : List RankedRow :=
  (ranking.counts.zipIdx 1).map fun ((value, users), rank) ↦
    ⟨i, stepLabel i, value, users, rank⟩

/-- The values that are ranked high enough. -/
def top : List (String × Nat) := ranking.counts.take limit

def rest : List (String × Nat) := ranking.counts.drop limit

def restTotal : Nat := ((ranking.rest limit).map Prod.snd).sum

/-- A row for each of the top values, with its own number, and one row for the rest, if there is
any. -/
def buckets : List (String × Nat) :=
  ranking.top limit ++
    if ranking.rest limit = [] then [] else [(restLabel, ranking.restTotal limit)]

/-- There are values below the limit and one above it that is called like them. -/
def Clashes : Prop := ranking.rest limit ≠ [] ∧ restLabel ∈ (ranking.top limit).map Prod.fst

instance : Decidable (ranking.Clashes limit) := inferInstanceAs (Decidable (_ ∧ _))

/-- The numbers of users under the labels that the values have. -/
def labelled : List (String × Nat) :=
  ranking.top limit ++ (ranking.rest limit).map fun p ↦ (restLabel, p.2)

variable {ranking limit}

theorem labelled_eq : ranking.labelled limit = (ranking.counts.zipIdx 1).map
    fun (p, rank) ↦ (if limit < rank then restLabel else p.1, p.2) := by
  have hlength : (ranking.labelled limit).length = ranking.counts.length := by
    simp [labelled, top, rest]
    omega
  refine List.ext_getElem (by simp [hlength]) fun j hj _ ↦ ?_
  rw [hlength] at hj
  simp only [labelled, top, rest, List.getElem_append, List.length_take, List.getElem_take,
    List.getElem_map, List.getElem_drop, List.getElem_zipIdx]
  by_cases hlimit : j < limit
  · simp [hlimit, hj, show ¬ limit < 1 + j by omega]
  · simp [hlimit, show limit < 1 + j by omega, show limit ≤ ranking.counts.length by omega,
      show limit + (j - limit) = j by omega]

theorem nodup_top : ((ranking.top limit).map Prod.fst).Nodup :=
  ranking.distinct.sublist ((List.take_sublist limit ranking.counts).map Prod.fst)

theorem map_fst_labelled : (ranking.labelled limit).map Prod.fst =
    (ranking.top limit).map Prod.fst ++ (ranking.rest limit).map fun _ ↦ restLabel := by
  rw [labelled, List.map_append, List.map_map]
  rfl

theorem sum_labelled :
    ((ranking.labelled limit).map Prod.snd).sum = (ranking.counts.map Prod.snd).sum := by
  conv_rhs => rw [← List.take_append_drop limit ranking.counts]
  rw [labelled, List.map_append, List.map_append, List.map_map]
  rfl

/-! ### The sums of the labels -/

theorem mem_labels {label : String} (h : label ∈ (ranking.labelled limit).map Prod.fst) :
    label ∈ (ranking.top limit).map Prod.fst ∨ label = restLabel := by
  rw [map_fst_labelled, List.mem_append] at h
  refine h.imp_right fun hrest ↦ ?_
  obtain ⟨p, -, rfl⟩ := List.mem_map.1 hrest
  rfl

/-- There are no more labels than values with a row of their own, and one more. -/
theorem length_groupSums_labelled_le :
    (groupSums Prod.fst Prod.snd (ranking.labelled limit)).length ≤ limit + 1 := by
  have hlabels : (ranking.labelled limit).map Prod.fst ⊆
      (ranking.top limit).map Prod.fst ++ [restLabel] := fun label hlabel ↦
    List.mem_append.2 ((mem_labels hlabel).imp_right List.mem_singleton.2)
  have htop : (ranking.top limit).length ≤ limit := List.length_take_le limit ranking.counts
  calc (groupSums Prod.fst Prod.snd (ranking.labelled limit)).length
      ≤ ((ranking.top limit).map Prod.fst ++ [restLabel]).length := length_groupSums_le hlabels
    _ = (ranking.top limit).length + 1 := by simp
    _ ≤ limit + 1 := Nat.succ_le_succ htop

/-- A value keeps its own number, unless it is called like the rest. -/
theorem mem_groupSums_labelled {p : String × Nat} (hp : p ∈ ranking.top limit) :
    (p.1, p.2 + if p.1 = restLabel then ranking.restTotal limit else 0) ∈
      groupSums Prod.fst Prod.snd (ranking.labelled limit) := by
  refine mem_groupSums.2 ⟨?_, ?_⟩
  · rw [map_fst_labelled]
    exact List.mem_append_left _ (List.mem_map_of_mem hp)
  rw [labelled, List.filter_append, filter_key_eq_singleton nodup_top hp, List.filter_map]
  by_cases hlabel : p.1 = restLabel
  · simp [hlabel, restTotal, Function.comp_def]
  · simp [hlabel, Ne.symm hlabel, Function.comp_def]

theorem groupSums_labelled_of_not_clashes (h : ¬ ranking.Clashes limit) :
    groupSums Prod.fst Prod.snd (ranking.labelled limit) = ranking.buckets limit := by
  have htop : groupSums Prod.fst Prod.snd (ranking.top limit) = ranking.top limit := by
    rw [groupSums_of_nodup nodup_top, List.map_id']
  by_cases hrest : ranking.rest limit = []
  · rw [labelled, buckets, hrest, List.map_nil, if_pos rfl, List.append_nil, htop]
  · have hfresh : restLabel ∉ (ranking.top limit).map Prod.fst := fun hmem ↦ h ⟨hrest, hmem⟩
    have hdisjoint : ((ranking.top limit).map Prod.fst).Disjoint
        (((ranking.rest limit).map fun p ↦ (restLabel, p.2)).map Prod.fst) := by
      rintro label hown hlabel
      rw [List.map_map] at hlabel
      obtain ⟨p, -, rfl⟩ := List.mem_map.1 hlabel
      exact hfresh hown
    have hsum : groupSums Prod.fst Prod.snd ((ranking.rest limit).map fun p ↦ (restLabel, p.2)) =
        [(restLabel, ranking.restTotal limit)] := by
      have hlabel : ∀ p ∈ (ranking.rest limit).map fun p ↦ (restLabel, p.2), p.1 = restLabel :=
        List.forall_mem_map.2 fun _ _ ↦ rfl
      rw [groupSums_of_forall_eq (by simpa using hrest) hlabel, List.map_map]
      rfl
    rw [labelled, buckets, if_neg hrest, groupSums_append hdisjoint, htop, hsum]

/-- If one of the top values is called like the rest, there is a row less. -/
theorem length_groupSums_labelled_lt (h : ranking.Clashes limit) :
    (groupSums Prod.fst Prod.snd (ranking.labelled limit)).length <
      (ranking.buckets limit).length := by
  obtain ⟨hrest, hmem⟩ := h
  have hlabels : (ranking.labelled limit).map Prod.fst ⊆ (ranking.top limit).map Prod.fst := by
    intro label hlabel
    obtain hown | rfl := mem_labels hlabel
    · exact hown
    · exact hmem
  calc (groupSums Prod.fst Prod.snd (ranking.labelled limit)).length
      ≤ ((ranking.top limit).map Prod.fst).length := length_groupSums_le hlabels
    _ < (ranking.buckets limit).length := by simp [buckets, hrest]

theorem groupSums_labelled_perm_iff :
    (groupSums Prod.fst Prod.snd (ranking.labelled limit)).Perm (ranking.buckets limit) ↔
      ¬ ranking.Clashes limit := by
  constructor
  · intro hperm hclash
    exact (length_groupSums_labelled_lt hclash).ne hperm.length_eq
  · intro h
    rw [groupSums_labelled_of_not_clashes h]

end Ranking

/-! ## The count of a step -/

/-- What a count shows of a ranked value. -/
inductive CountKey
  | number (column : RankedNumber)
  | text (column : RankedText)
  | literal (text : String)
  | castToText (column : RankedText)
  | ifAbove (column : RankedNumber) (limit : Nat) (above otherwise : CountKey)
deriving DecidableEq, Repr

def CountKey.sql : CountKey → String
  | number column => column.name
  | text column => column.name
  | literal s => (Value.string s).sql
  | castToText column => "cast(" ++ column.name ++ " AS varchar)"
  | ifAbove column limit above otherwise =>
    "CASE WHEN " ++ column.name ++ " > " ++ toString limit ++ " THEN " ++ above.sql ++ " ELSE " ++
      otherwise.sql ++ " END"

theorem CountKey.sql_ifAbove (column : RankedNumber) (limit : Nat) (above otherwise : CountKey) :
    (CountKey.ifAbove column limit above otherwise).sql =
      "CASE WHEN " ++ column.name ++ " > " ++ toString limit ++ " THEN " ++ above.sql ++ " ELSE " ++
        otherwise.sql ++ " END" := rfl

/-- A value of a result. -/
inductive Cell
  | number (n : Nat)
  | text (s : String)
deriving DecidableEq, Repr

/-- The value for one row; a text is its own cast. -/
def CountKey.eval (r : RankedRow) : CountKey → Cell
  | number column => .number (r.number column)
  | text column => .text (r.text column)
  | literal s => .text s
  | castToText column => .text (r.text column)
  | ifAbove column limit above otherwise =>
    if limit < r.number column then above.eval r else otherwise.eval r

/-- A query of ranked values: the sums of a column over the rows that agree in all keys. -/
structure CountQuery where
  keys : List (CountKey × Option String)
  total : RankedNumber
deriving DecidableEq, Repr

namespace CountQuery

def keySql : CountKey × Option String → String
  | (key, some name) => key.sql ++ " AS " ++ name
  | (key, none) => key.sql

/-- The query of the rows that another query gives. -/
def sql (q : CountQuery) (ranked : String) : String :=
  "(SELECT " ++ ", ".intercalate (q.keys.map keySql) ++ ", sum(" ++ q.total.name ++ ") AS " ++
    q.total.name ++ " FROM (" ++ ranked ++ ") ranked GROUP BY " ++ positions q.keys.length ++ ")"

/-- The rows of the result: the keys and their sum. -/
def rows (q : CountQuery) (table : List RankedRow) : List (List Cell × Nat) :=
  groupSums (fun r ↦ q.keys.map fun (key, _) ↦ key.eval r) (fun r ↦ r.number q.total) table

end CountQuery

namespace Setting

variable (s : Setting)

/-- The count of a step by bucket. -/
def bucketCount (dimension : String) : CountQuery where
  keys := [(.number .stepIndex, none), (.text .step, none),
    (.ifAbove .rank s.config.topBuckets (.literal restLabel) (.castToText .value), some dimension)]
  total := .users

theorem bucketSql_eq_sql :
    s.bucketSql = (CountKey.ifAbove .rank s.config.topBuckets (.literal restLabel)
      (.castToText .value)).sql := by
  have hcase : "CASE WHEN bucket_rank > " = "CASE WHEN " ++ (RankedNumber.rank.name ++ " > ") := by
    decide +kernel
  have helse : " THEN 'Others' ELSE cast(dimension AS varchar) END" =
      " THEN " ++ ((CountKey.literal restLabel).sql ++
        (" ELSE " ++ ((CountKey.castToText .value).sql ++ " END"))) := by
    decide +kernel
  unfold bucketSql
  rw [hcase, helse, CountKey.sql_ifAbove]
  -- The texts of the two branches are closed terms; they are not to be computed.
  generalize (CountKey.literal restLabel).sql = above
  generalize (CountKey.castToText .value).sql = otherwise
  simp only [String.append_assoc]

theorem bucketsSql_eq_sql (dimension : String) (i : Nat) :
    s.bucketsSql dimension i = (s.bucketCount dimension).sql (s.rankedSql i) := by
  have hopen : "(SELECT step_index, step, " =
      "(SELECT " ++ ("step_index" ++ (", " ++ ("step" ++ ", "))) := by
    decide +kernel
  have hsum : ", sum(user_count) AS user_count FROM (" =
      ", sum(" ++ ("user_count" ++ (") AS " ++ ("user_count" ++ " FROM ("))) := by
    decide +kernel
  have hclose : ") ranked GROUP BY 1, 2, 3)" = ") ranked GROUP BY " ++ (positions 3 ++ ")") := by
    decide +kernel
  have hcount : (s.bucketCount dimension).sql (s.rankedSql i) =
    "(SELECT " ++ ", ".intercalate ["step_index", "step", s.bucketSql ++ " AS " ++ dimension] ++
      ", sum(" ++ "user_count" ++ ") AS " ++ "user_count" ++ " FROM (" ++ s.rankedSql i ++
      ") ranked GROUP BY " ++ positions 3 ++ ")" := by
    rw [bucketSql_eq_sql]
    rfl
  rw [hcount, String.intercalate_cons_cons, String.intercalate_cons_cons,
    String.intercalate_singleton]
  unfold bucketsSql
  rw [hopen, hsum, hclose]
  generalize s.bucketSql = bucket
  generalize s.rankedSql i = ranked
  generalize positions 3 = pos
  simp only [String.append_assoc]

/-- What the query of the ranked values shows: the step and its name, the value, its number of users
and its rank by this number. -/
def rankedItems (i : Nat) : List String :=
  [toString i ++ " AS " ++ RankedNumber.stepIndex.name,
    "'" ++ stepLabel i ++ "' AS " ++ RankedText.step.name,
    RankedText.value.name,
    s.userCount ++ " AS " ++ RankedNumber.users.name,
    "row_number() OVER (ORDER BY " ++ s.userCount ++ " DESC) AS " ++ RankedNumber.rank.name]

theorem rankedSql_eq_items (i : Nat) :
    s.rankedSql i = "SELECT " ++ ", ".intercalate (s.rankedItems i) ++ " FROM " ++ stepName i ++
      " GROUP BY " ++ RankedText.value.name := by
  have hlabel : " AS step_index, 'Step " =
      " AS " ++ (RankedNumber.stepIndex.name ++ (", " ++ ("'" ++ "Step "))) := by
    decide +kernel
  have hstep : "' AS step" = "' AS " ++ RankedText.step.name := by decide +kernel
  have hvalue : ", dimension, " = ", " ++ (RankedText.value.name ++ ", ") := by decide +kernel
  have husers : " AS user_count, " = " AS " ++ (RankedNumber.users.name ++ ", ") := by
    decide +kernel
  have hrank : " DESC) AS bucket_rank FROM " =
      " DESC) AS " ++ (RankedNumber.rank.name ++ " FROM ") := by
    decide +kernel
  have hgroup : " GROUP BY dimension" = " GROUP BY " ++ RankedText.value.name := by decide +kernel
  unfold rankedSql labelSql rankedItems stepLabel
  rw [hlabel, hstep, hvalue, husers, hrank, hgroup, String.intercalate_cons_cons,
    String.intercalate_cons_cons, String.intercalate_cons_cons, String.intercalate_cons_cons,
    String.intercalate_singleton]
  generalize s.userCount = users
  generalize RankedNumber.stepIndex.name = index
  generalize RankedText.step.name = step
  generalize RankedText.value.name = value
  generalize RankedNumber.users.name = count
  generalize RankedNumber.rank.name = rank
  simp only [String.append_assoc]

/-- The row of a result. -/
def countRow (i : Nat) (bucket : String × Nat) : List Cell × Nat :=
  ([.number i, .text (stepLabel i), .text bucket.1], bucket.2)

omit s in
theorem countRow_injective {i : Nat} : Function.Injective (countRow i) := by
  rintro ⟨label, n⟩ ⟨label', n'⟩ heq
  simpa [countRow] using heq

theorem rows_bucketCount (dimension : String) (ranking : Ranking) (i : Nat) :
    (s.bucketCount dimension).rows (ranking.table i) =
      (groupSums Prod.fst Prod.snd (ranking.labelled s.config.topBuckets)).map (countRow i) := by
  have hinjective : Function.Injective fun label ↦
      [Cell.number i, .text (stepLabel i), .text label] := by
    intro label label' heq
    simpa using heq
  have hkeys (z : (String × Nat) × Nat) :
      (s.bucketCount dimension).keys.map
          (fun (key, _) ↦ key.eval ⟨i, stepLabel i, z.1.1, z.1.2, z.2⟩) =
        [.number i, .text (stepLabel i),
          .text (if s.config.topBuckets < z.2 then restLabel else z.1.1)] := by
    rw [apply_ite Cell.text]
    rfl
  rw [CountQuery.rows, Ranking.table, Ranking.labelled_eq, groupSums_map, groupSums_map]
  simp only [hkeys]
  exact groupSums_comp hinjective

end Setting

/-- For each step there are at most as many rows as values that may have one, and one more, and
their numbers sum up to those of all values.  Each of the top values has a row of its own with its
own number and the rest is in one row, unless there is a rest and a top value is called like it: the
two share a row. -/
theorem bucket_rows_perm_iff {config : Config} {registry : Registry} {r : Request} {c : Compiled}
    {d : String} (h : (compile config registry r).result = .ok c) (hd : r.dimension = some d) :
    ∃ period, r.check config = .ok period ∧
      let s : Setting := ⟨config, period, r.dimension⟩
      let limit := config.topBuckets
      ∃ bodies, c.sql = s.statementSql bodies ∧ bodies.length = r.steps.length ∧
        ∀ i < bodies.length,
          s.countSql i = (s.bucketCount d).sql (s.rankedSql i) ∧
          s.rankedSql i = "SELECT " ++ ", ".intercalate (s.rankedItems i) ++ " FROM " ++
            stepName i ++ " GROUP BY " ++ RankedText.value.name ∧
          ∀ ranking : Ranking,
            let rows := (s.bucketCount d).rows (ranking.table i)
            rows.length ≤ limit + 1 ∧
            (rows.map Prod.snd).sum = (ranking.counts.map Prod.snd).sum ∧
            (∀ p ∈ ranking.top limit, Setting.countRow i
              (p.1, p.2 + if p.1 = restLabel then ranking.restTotal limit else 0) ∈ rows) ∧
            (rows.Perm ((ranking.buckets limit).map (Setting.countRow i)) ↔
              ¬ ranking.Clashes limit) := by
  obtain ⟨period, hcheck, bodies, hsql, hbodies⟩ := exists_bodies h
  refine ⟨period, hcheck, bodies, hsql, hbodies.length_eq.symm, fun i _ ↦ ⟨?_, ?_, ?_⟩⟩
  · rw [Setting.countSql, hd]
    exact Setting.bucketsSql_eq_sql _ d i
  · exact Setting.rankedSql_eq_items _ i
  intro ranking rows
  have hrows : rows = (groupSums Prod.fst Prod.snd (ranking.labelled config.topBuckets)).map
    (Setting.countRow i) := Setting.rows_bucketCount _ d ranking i
  rw [hrows, List.length_map, List.map_map]
  refine ⟨Ranking.length_groupSums_labelled_le, ?_, fun p hp ↦ ?_, ?_⟩
  · exact sum_groupSums.trans Ranking.sum_labelled
  · exact List.mem_map_of_mem (Ranking.mem_groupSums_labelled hp)
  · rw [List.map_perm_map_iff Setting.countRow_injective]
    exact Ranking.groupSums_labelled_perm_iff

/-- Of four values the first two have rows of their own; if one of them is called like the rest, its
row has the users of the rest, too. -/
theorem bucket_rows_of_two_rankings :
    let config : Config := { Config.default with topBuckets := 2 }
    let r : Request := ⟨"shop", [⟨"visit", none⟩], some "country",
      ⟨2024, 2, 1, by decide⟩, ⟨2024, 2, 29, by decide⟩⟩
    let apart : Ranking :=
      ⟨[("fr", 9), ("be", 5), ("Others", 3), ("it", 3)], by decide, by decide⟩
    let merged : Ranking :=
      ⟨[("fr", 9), ("Others", 5), ("de", 3), ("it", 1)], by decide, by decide⟩
    ∃ c period, (compile config (.ofCatalog .empty) r).result = .ok c ∧
      let s : Setting := ⟨config, period, some "country"⟩
      s.countSql 0 = (s.bucketCount "country").sql (s.rankedSql 0) ∧
      ((s.bucketCount "country").rows (apart.table 0)).Perm
        ([("fr", 9), ("be", 5), ("Others", 6)].map (Setting.countRow 0)) ∧
      Setting.countRow 0 ("Others", 9) ∈ (s.bucketCount "country").rows (merged.table 0) ∧
      ¬ ((s.bucketCount "country").rows (merged.table 0)).Perm
        ([("fr", 9), ("Others", 5), ("Others", 4)].map (Setting.countRow 0)) := by
  intro config r apart merged
  have hcheck : Request.check config r =
      .ok ⟨⟨2024, 2, 1, by decide⟩, ⟨2024, 3, 1, by decide⟩⟩ := by decide
  have hc := compile_of_check (.ofCatalog .empty) hcheck
  obtain ⟨period, -, bodies, -, hlength, hcounts⟩ := bucket_rows_perm_iff hc rfl
  obtain ⟨hsql, -, hrows⟩ := hcounts 0 (hlength ▸ Nat.one_pos)
  obtain ⟨-, -, -, happart⟩ := hrows apart
  obtain ⟨-, -, hown, hmerged⟩ := hrows merged
  refine ⟨_, period, hc, hsql, happart.2 (by decide), ?_, ?_⟩
  · exact hown ("Others", 5) (by decide)
  · exact fun hperm ↦ hmerged.1 hperm (by decide)

/-- With one row of its own, a value that is called like the rest has a row with all users, and no
row has its own number. -/
theorem no_row_for_value_called_rest :
    let config : Config := { Config.default with topBuckets := 1 }
    let r : Request := ⟨"p", [⟨"visit", none⟩], some "country",
      ⟨2023, 1, 1, by decide⟩, ⟨2023, 1, 7, by decide⟩⟩
    let ranking : Ranking := ⟨[("Others", 5), ("fr", 3), ("de", 2)], by decide, by decide⟩
    ("Others", 5) ∈ ranking.top 1 ∧
    ∃ c period bodies, (compile config (.ofCatalog .empty) r).result = .ok c ∧
      let s : Setting := ⟨config, period, some "country"⟩
      c.sql = s.statementSql bodies ∧ bodies.length = 1 ∧
      s.countSql 0 = (s.bucketCount "country").sql (s.rankedSql 0) ∧
      (s.bucketCount "country").rows (ranking.table 0) =
        [([.number 0, .text "Step 1", .text "Others"], 10)] ∧
      ∀ row ∈ (s.bucketCount "country").rows (ranking.table 0), row.2 ≠ 5 := by
  intro config r ranking
  let period : Period := ⟨⟨2023, 1, 1, by decide⟩, ⟨2023, 1, 8, by decide⟩⟩
  have hcheck : Request.check config r = .ok period := by decide
  have hrows : (Setting.bucketCount ⟨config, period, some "country"⟩ "country").rows
      (ranking.table 0) = [([.number 0, .text "Step 1", .text "Others"], 10)] := by
    decide +kernel
  refine ⟨by decide, _, period, _, compile_of_check (.ofCatalog .empty) hcheck, rfl, rfl,
    Setting.bucketsSql_eq_sql _ "country" 0, hrows, ?_⟩
  rw [hrows]
  decide

end Funnel
