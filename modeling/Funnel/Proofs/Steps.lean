import Funnel.Proofs.Columns
import Mathlib

/-!
# The Rows of the Steps

What the named queries of a statement compute from the rows of their bodies.  The queries are
evaluated in order: each reads its own body and, by name, the rows of a query before it.  What is
evaluated is what the statement says: every query and every condition in it has a text
(`StepQuery.text`), and these texts are the statement.  A row ends up in a step exactly if it ends a
path of rows, one from the body of every step so far, that belong to one user and whose days never
go back (`mem_runSteps_iff`).  So the users of a step are among the users of the step before, and
their number never grows along the funnel.
-/

namespace Funnel

/-! ## Names -/

/-- Different steps have different names. -/
theorem stepName_injective : Function.Injective stepName := by
  intro i j h
  have hdigits : Nat.toDigits 10 i = Nat.toDigits 10 j := by
    have hlist := congrArg String.toList h
    simpa [stepName, Nat.toString_eq_ofList_toDigits] using hlist
  have hvalue := congrArg (fun ds ↦ Nat.ofDigitChars 10 ds 0) hdigits
  simpa [Nat.ofDigitChars_ten_toDigits] using hvalue

/-- What the first steps have, under the names of the steps. -/
def named {α : Type} (results : List α) : List (String × α) :=
  results.mapIdx fun i rows ↦ (stepName i, rows)

theorem lookup_named {α : Type} (results : List α) (i : Nat) :
    (named results).lookup (stepName i) = results[i]? := by
  -- The induction takes names off the front, so it is about any injective naming.
  have hgeneral : ∀ (name : Nat → String), Function.Injective name → ∀ i,
      (results.mapIdx fun j rows ↦ (name j, rows)).lookup (name i) = results[i]? := by
    induction results with
    | nil => simp
    | cons rows results ih =>
      intro name hname i
      rw [List.mapIdx_cons]
      cases i with
      | zero => simp
      | succ i =>
        have hne : (name (i + 1) == name 0) = false := by simp [hname.eq_iff]
        rw [List.lookup, hne, List.getElem?_cons_succ]
        exact ih (fun j ↦ name (j + 1)) (fun j k h ↦ Nat.succ.inj (hname h)) i
  exact hgeneral stepName stepName_injective i

/-! ## Rows -/

/-- A row of a step.  Its columns are told apart by what they hold; without a dimension nothing
looks at the bucket. -/
structure Row (Value : Type) where
  day : Value
  bucket : Value
  user : Value

section Meaning

variable {Value : Type} [LinearOrder Value]

def Row.value (r : Row Value) : StepColumn → Value
  | .day => r.day
  | .bucket => r.bucket
  | .user => r.user

/-- The relation of two values that a comparison stands for. -/
def Comparison.holds : Comparison → Value → Value → Bool
  | .notBefore, x, y => decide (y ≤ x)
  | .equal, x, y => decide (x = y)

/-- The value that a name and a column stand for, where two named rows are in scope. -/
def StepValue.among (v : StepValue) (scope : List (String × Row Value)) : Option Value :=
  (scope.lookup (stepName v.step)).map (·.value v.column)

/-- A condition holds; it does not if it names a step that is not in scope. -/
def LinkCondition.holds (c : LinkCondition) (scope : List (String × Row Value)) : Bool :=
  match c.left.among scope, c.right.among scope with
  | some x, some y => c.comparison.holds x y
  | _, _ => false

/-! ## Queries -/

/-- The rows of a step, given the rows of its body and those of the queries before it: one for each
pair that the link matches.  There are none to give if the link names no query before it. -/
def StepQuery.rows? (q : StepQuery) (body : List (Row Value))
    (earlier : List (String × List (Row Value))) : Option (List (Row Value)) :=
  match q.link with
  | none => some body
  | some l => (earlier.lookup (stepName l.step)).map fun others ↦
    body.flatMap fun r ↦
      (others.filter fun r' ↦
        l.conditions.all (·.holds [(stepName q.index, r), (stepName l.step, r')])).map fun _ ↦ r

/-- Evaluates named queries in order, each with the rows of its body. -/
def runSteps (earlier : List (String × List (Row Value))) :
    List (StepQuery × List (Row Value)) → Option (List (String × List (Row Value)))
  | [] => some earlier
  | (q, body) :: rest =>
    (q.rows? body earlier).bind fun rows ↦ runSteps (earlier ++ [(stepName q.index, rows)]) rest

/-! ## One step -/

/-- A row comes after another one of the same user, in the same bucket where there are buckets. -/
structure Row.Follows (bucketed : Bool) (r r' : Row Value) : Prop where
  day : r'.day ≤ r.day
  bucket : bucketed = true → r.bucket = r'.bucket
  user : r.user = r'.user

/-- A condition of a link compares a column of one row with the same column of the other. -/
theorem holds_between (i : Nat) (column : StepColumn) (comparison : Comparison) (r r' : Row Value) :
    LinkCondition.holds ⟨⟨i + 1, column⟩, comparison, ⟨i, column⟩⟩
        [(stepName (i + 1), r), (stepName i, r')] =
      comparison.holds (r.value column) (r'.value column) := by
  have hname : (stepName i == stepName (i + 1)) = false := by
    simp [stepName_injective.eq_iff]
  have hown : StepValue.among ⟨i + 1, column⟩ [(stepName (i + 1), r), (stepName i, r')] =
      some (r.value column) := by
    simp [StepValue.among]
  have hother : StepValue.among ⟨i, column⟩ [(stepName (i + 1), r), (stepName i, r')] =
      some (r'.value column) := by
    simp [StepValue.among, List.lookup, hname]
  simp only [LinkCondition.holds, hown, hother]

/-- The conditions of a link say that one row follows the other. -/
theorem holds_toPrevious_iff (bucketed : Bool) (i : Nat) (r r' : Row Value) :
    (Link.toPrevious bucketed i).conditions.all
        (·.holds [(stepName (i + 1), r), (stepName i, r')]) = true ↔ r.Follows bucketed r' := by
  simp only [Link.toPrevious, List.all_map, Function.comp_def, holds_between]
  cases bucketed with
  | false =>
    simp only [linkConditions, Comparison.holds, Row.value]
    constructor
    · intro h
      simp only [Bool.false_eq_true, if_false, List.cons_append, List.nil_append,
        List.all_cons, List.all_nil, Bool.and_true, Bool.and_eq_true, decide_eq_true_eq] at h
      exact ⟨h.1, by simp, h.2⟩
    · rintro ⟨hday, -, huser⟩
      simp [hday, huser]
  | true =>
    simp only [linkConditions, Comparison.holds, Row.value]
    constructor
    · intro h
      simp only [if_true, List.cons_append, List.nil_append, List.all_cons, List.all_nil,
        Bool.and_true, Bool.and_eq_true, decide_eq_true_eq] at h
      exact ⟨h.1, fun _ ↦ h.2.1, h.2.2⟩
    · rintro ⟨hday, hbucket, huser⟩
      simp [hday, hbucket rfl, huser]

/-- A step keeps the rows of its body that follow some row of the step before. -/
theorem rows?_stepQuery_succ (s : Setting) (i : Nat) (b : Body) (body others : List (Row Value))
    (earlier : List (String × List (Row Value)))
    (h : earlier.lookup (stepName i) = some others) :
    ∃ rows, (s.stepQuery (i + 1) b).rows? body earlier = some rows ∧
      ∀ r, r ∈ rows ↔ r ∈ body ∧ ∃ r' ∈ others, r.Follows s.dimension.isSome r' := by
  have hrows : (s.stepQuery (i + 1) b).rows? body earlier = some (body.flatMap fun r ↦
      (others.filter fun r' ↦ (Link.toPrevious s.dimension.isSome i).conditions.all
        (·.holds [(stepName (i + 1), r), (stepName i, r')])).map fun _ ↦ r) := by
    unfold StepQuery.rows?
    change (earlier.lookup (stepName i)).map _ = _
    rw [h]
    rfl
  refine ⟨_, hrows, fun r ↦ ?_⟩
  simp only [List.mem_flatMap, List.mem_map, List.mem_filter, holds_toPrevious_iff]
  constructor
  · rintro ⟨x, hx, r', ⟨hr', hfollows⟩, rfl⟩
    exact ⟨hx, r', hr', hfollows⟩
  · rintro ⟨hr, r', hr', hfollows⟩
    exact ⟨r, hr, r', ⟨hr', hfollows⟩, rfl⟩

/-! ## Paths -/

/-- The row ends a path of rows, one from each body up to its own, that belong to one user, and to
one bucket where there are buckets, and whose days never go back. -/
def Reaches (bucketed : Bool) (contents : List (List (Row Value))) (i : Nat) (r : Row Value) :
    Prop :=
  ∃ path : Nat → Row Value, path i = r ∧
    (∀ j ≤ i, ∃ rows, contents[j]? = some rows ∧ path j ∈ rows) ∧
    (∀ j ≤ i, (path j).user = r.user ∧ (bucketed = true → (path j).bucket = r.bucket)) ∧
    ∀ j k, j ≤ k → k ≤ i → (path j).day ≤ (path k).day

variable {bucketed : Bool} {contents : List (List (Row Value))}

theorem reaches_zero_iff {r : Row Value} :
    Reaches bucketed contents 0 r ↔ ∃ rows, contents[0]? = some rows ∧ r ∈ rows := by
  constructor
  · rintro ⟨path, rfl, hmem, -, -⟩
    exact hmem 0 (Nat.le_refl 0)
  · rintro ⟨rows, hrows, hr⟩
    refine ⟨fun _ ↦ r, rfl, ?_, fun _ _ ↦ ⟨rfl, fun _ ↦ rfl⟩, fun _ _ _ _ ↦ le_refl _⟩
    intro j hj
    obtain rfl : j = 0 := by omega
    exact ⟨rows, hrows, hr⟩

/-- A path goes on to a row of the next body that follows its end. -/
theorem reaches_succ_iff {i : Nat} {r : Row Value} :
    Reaches bucketed contents (i + 1) r ↔
      (∃ rows, contents[i + 1]? = some rows ∧ r ∈ rows) ∧
        ∃ r', Reaches bucketed contents i r' ∧ r.Follows bucketed r' := by
  constructor
  · rintro ⟨path, rfl, hmem, hsame, hdays⟩
    refine ⟨hmem (i + 1) (Nat.le_refl _), path i, ⟨path, rfl, ?_, ?_, ?_⟩, ?_⟩
    · exact fun j hj ↦ hmem j (by omega)
    · intro j hj
      obtain ⟨huser, hbucket⟩ := hsame j (by omega)
      obtain ⟨huser', hbucket'⟩ := hsame i (by omega)
      exact ⟨huser.trans huser'.symm, fun h ↦ (hbucket h).trans (hbucket' h).symm⟩
    · exact fun j k hjk hk ↦ hdays j k hjk (by omega)
    · obtain ⟨huser, hbucket⟩ := hsame i (by omega)
      exact ⟨hdays i (i + 1) (by omega) (Nat.le_refl _), fun h ↦ (hbucket h).symm, huser.symm⟩
  · rintro ⟨⟨rows, hrows, hr⟩, r', ⟨path, rfl, hmem, hsame, hdays⟩, hfollows⟩
    have hend : ¬ i + 1 ≤ i := Nat.not_succ_le_self i
    refine ⟨fun j ↦ if j ≤ i then path j else r, by simp [hend], ?_, ?_, ?_⟩
    · intro j hj
      by_cases hji : j ≤ i
      · simpa [hji] using hmem j hji
      · obtain rfl : j = i + 1 := by omega
        exact ⟨rows, hrows, by simpa [hend] using hr⟩
    · intro j hj
      by_cases hji : j ≤ i
      · obtain ⟨huser, hbucket⟩ := hsame j hji
        simp only [hji, if_true]
        exact ⟨huser.trans hfollows.user.symm, fun h ↦ (hbucket h).trans (hfollows.bucket h).symm⟩
      · simp [hji]
    · intro j k hjk hk
      by_cases hki : k ≤ i
      · have hji : j ≤ i := by omega
        simpa [hji, hki] using hdays j k hjk hki
      · by_cases hji : j ≤ i
        · simp only [hji, hki, if_true, if_false]
          exact le_trans (hdays j i hji (Nat.le_refl _)) hfollows.day
        · simp [hji, hki]

/-! ## Runs -/

/-- Each step has the rows that end a path. -/
def Reached (bucketed : Bool) (contents results : List (List (Row Value))) : Prop :=
  ∀ i rows, results[i]? = some rows → ∀ r, r ∈ rows ↔ Reaches bucketed contents i r

/-- The query of the next step adds its rows that end a path. -/
theorem rows?_stepQuery (s : Setting) (b : Body) {results : List (List (Row Value))}
    {body : List (Row Value)} (hbody : contents[results.length]? = some body)
    (h : Reached s.dimension.isSome contents results) :
    ∃ rows, (s.stepQuery results.length b).rows? body (named results) = some rows ∧
      Reached s.dimension.isSome contents (results ++ [rows]) := by
  have hstep : ∃ rows, (s.stepQuery results.length b).rows? body (named results) = some rows ∧
      ∀ r, r ∈ rows ↔ Reaches s.dimension.isSome contents results.length r := by
    cases hlength : results.length with
    | zero =>
      rw [hlength] at hbody
      refine ⟨body, rfl, fun r ↦ ?_⟩
      simp [reaches_zero_iff, hbody]
    | succ i =>
      rw [hlength] at hbody
      have hlast : results[i]? = some results[i] := List.getElem?_eq_getElem (by omega)
      obtain ⟨rows, hrows, hmem⟩ := rows?_stepQuery_succ s i b body results[i] (named results)
        ((lookup_named results i).trans hlast)
      refine ⟨rows, hrows, fun r ↦ ?_⟩
      simp [hmem, reaches_succ_iff, hbody, h i results[i] hlast]
  obtain ⟨rows, hrows, hmem⟩ := hstep
  refine ⟨rows, hrows, fun i found hfound r ↦ ?_⟩
  rcases Nat.lt_trichotomy i results.length with hi | rfl | hi
  · rw [List.getElem?_append_left hi] at hfound
    exact h i found hfound r
  · simp only [List.getElem?_concat_length, Option.some.injEq] at hfound
    exact hfound ▸ hmem r
  · rw [List.getElem?_eq_none (by simp; omega)] at hfound
    cases hfound

/-- A run of the queries of later steps, after the rows of the first ones. -/
theorem runSteps_stepQuery (s : Setting) (bodies : List Body) {results : List (List (Row Value))}
    (hlength : results.length + bodies.length = contents.length)
    (h : Reached s.dimension.isSome contents results) :
    ∃ later, later.length = bodies.length ∧
      runSteps (named results) ((bodies.mapIdx fun j b ↦ s.stepQuery (results.length + j) b).zip
        (contents.drop results.length)) = some (named (results ++ later)) ∧
      Reached s.dimension.isSome contents (results ++ later) := by
  induction bodies generalizing results with
  | nil => exact ⟨[], rfl, by simp [runSteps], by simpa using h⟩
  | cons b bodies ih =>
    have hlt : results.length < contents.length := by
      rw [← hlength, List.length_cons]
      omega
    obtain ⟨rows, hrows, hreached⟩ := rows?_stepQuery s b (List.getElem?_eq_getElem hlt) h
    obtain ⟨later, hlater, hrun, hall⟩ := ih
      (by rw [← hlength, List.length_append, List.length_cons, List.length_cons, List.length_nil]
          omega) hreached
    refine ⟨rows :: later, by rw [List.length_cons, hlater, List.length_cons], ?_,
      by simpa using hall⟩
    have hindex : (fun j b ↦ s.stepQuery (results.length + (j + 1)) b) =
        fun j b ↦ s.stepQuery ((results ++ [rows]).length + j) b := by
      funext j b
      congr 1
      rw [List.length_append, List.length_singleton]
      omega
    rw [List.drop_eq_getElem_cons hlt, List.mapIdx_cons, List.zip_cons_cons, runSteps]
    simp only [Nat.add_zero, hrows, Option.bind_some]
    have hnamed : named results ++ [(stepName (s.stepQuery results.length b).index, rows)] =
        named (results ++ [rows]) := by
      simp [named, Setting.stepQuery]
    rw [hnamed, hindex]
    simpa using hrun

/-! ## Users -/

/-- The distinct users of some rows. -/
def users [DecidableEq Value] (rows : List (Row Value)) : List Value := (rows.map Row.user).dedup

/-- The distinct users of the rows in one bucket. -/
def usersIn (bucket : Value) (rows : List (Row Value)) : List Value :=
  users (rows.filter fun r ↦ r.bucket = bucket)

theorem mem_users {rows : List (Row Value)} {u : Value} :
    u ∈ users rows ↔ ∃ r ∈ rows, r.user = u := by
  simp [users]

theorem length_users_le {rows rows' : List (Row Value)} (h : users rows ⊆ users rows') :
    (users rows).length ≤ (users rows').length :=
  (List.subperm_of_subset (List.nodup_dedup _) h).length_le

theorem users_subset {i : Nat} {rows next : List (Row Value)}
    (hrows : ∀ r, r ∈ rows ↔ Reaches bucketed contents i r)
    (hnext : ∀ r, r ∈ next ↔ Reaches bucketed contents (i + 1) r) : users next ⊆ users rows := by
  intro u hu
  obtain ⟨r, hr, rfl⟩ := mem_users.1 hu
  obtain ⟨-, r', hreaches, hfollows⟩ := reaches_succ_iff.1 ((hnext r).1 hr)
  exact mem_users.2 ⟨r', (hrows r').2 hreaches, hfollows.user.symm⟩

theorem usersIn_subset {i : Nat} {rows next : List (Row Value)}
    (hrows : ∀ r, r ∈ rows ↔ Reaches true contents i r)
    (hnext : ∀ r, r ∈ next ↔ Reaches true contents (i + 1) r) (bucket : Value) :
    usersIn bucket next ⊆ usersIn bucket rows := by
  intro u hu
  obtain ⟨r, hr, rfl⟩ := mem_users.1 hu
  rw [List.mem_filter, decide_eq_true_eq] at hr
  obtain ⟨-, r', hreaches, hfollows⟩ := reaches_succ_iff.1 ((hnext r).1 hr.1)
  refine mem_users.2 ⟨r', List.mem_filter.2 ⟨(hrows r').2 hreaches, ?_⟩, hfollows.user.symm⟩
  rw [decide_eq_true_eq, ← hfollows.bucket rfl, hr.2]

end Meaning

/-! ## All steps -/

/-- The rows of every step are the ends of the paths through the bodies, so neither the users of a
step nor, with a dimension, the users of a bucket ever grow in number along the funnel. -/
theorem mem_runSteps_iff {config : Config} {registry : Registry} {r : Request} {c : Compiled}
    (h : (compile config registry r).result = .ok c) :
    ∃ period, r.check config = .ok period ∧
      let s : Setting := ⟨config, period, r.dimension⟩
      let bodies := (s.plans (registry.table r.project config.connectorField) r.steps).map
        StepPlan.body
      let queries := bodies.mapIdx s.stepQuery
      c.sql = "WITH " ++ ",\n".intercalate (queries.map (StepQuery.text config)) ++ "\n" ++
        s.resultText "dimension" config.connectorField r.steps.length ∧
      (∀ body ∈ bodies, ∃ q : QueryText, body.sql = q.text ∧
        List.Forall₂ ShownAs q.shown (s.shownNames r.dimension)) ∧
      ∀ (Value : Type) [LinearOrder Value] (contents : List (List (Row Value))),
        contents.length = r.steps.length → ∃ results : List (List (Row Value)),
          results.length = r.steps.length ∧
          runSteps [] (queries.zip contents) = some (named results) ∧
          (∀ i (hi : i < results.length) row,
            row ∈ results[i] ↔ Reaches r.dimension.isSome contents i row) ∧
          ∀ i (hi : i + 1 < results.length),
            users results[i + 1] ⊆ users results[i] ∧
            (users results[i + 1]).length ≤ (users results[i]).length ∧
            (r.dimension.isSome = true → ∀ bucket,
              usersIn bucket results[i + 1] ⊆ usersIn bucket results[i] ∧
              (usersIn bucket results[i + 1]).length ≤ (usersIn bucket results[i]).length) := by
  obtain ⟨period, hcheck, rfl⟩ := compile_eq_ok_iff.1 h
  refine ⟨period, hcheck, ?_, ?_, ?_⟩
  · rw [Setting.compiled, Setting.statementSql_eq_texts]
    simp [Setting.plans]
  · intro body hbody
    simp only [Setting.plans, List.map_map, List.mem_map, Function.comp_apply] at hbody
    obtain ⟨step, -, rfl⟩ := hbody
    have hexposes := Setting.exposes_plan (s := ⟨config, period, r.dimension⟩)
      (Setting.findsByName_table registry r.project config.connectorField) step
    exact ⟨_, Body.sql_eq_text_parts _, hexposes.columns⟩
  intro Value _ contents hcontents
  set s : Setting := ⟨config, period, r.dimension⟩
  set bodies := (s.plans (registry.table r.project config.connectorField) r.steps).map StepPlan.body
  have hbodies : bodies.length = r.steps.length := by simp [bodies, Setting.plans]
  have hnone : Reached s.dimension.isSome contents [] := fun i rows hrows ↦ by simp at hrows
  obtain ⟨results, hlength, hrun, hreached⟩ :=
    runSteps_stepQuery s bodies (by simp [hbodies, hcontents]) hnone
  rw [List.nil_append] at hrun hreached
  simp only [List.length_nil, Nat.zero_add, List.drop_zero] at hrun
  have hmem : ∀ i (hi : i < results.length) row,
      row ∈ results[i] ↔ Reaches r.dimension.isSome contents i row :=
    fun i hi ↦ hreached i _ (List.getElem?_eq_getElem hi)
  refine ⟨results, hlength.trans hbodies, hrun, hmem, fun i hi ↦ ?_⟩
  have husers := users_subset (hmem i (by omega)) (hmem (i + 1) hi)
  refine ⟨husers, length_users_le husers, fun hdim bucket ↦ ?_⟩
  rw [hdim] at hmem
  have hbucket := usersIn_subset (hmem i (by omega)) (hmem (i + 1) hi) bucket
  exact ⟨hbucket, length_users_le hbucket⟩

/-- Of two users who buy on day 1, the one who visited on day 2 is not in the second step. -/
theorem rows_of_two_steps :
    let registry : Registry := .ofCatalog .empty
    let r : Request := ⟨"shop", [⟨"visit", none⟩, ⟨"buy", none⟩], some "region",
      ⟨2024, 2, 1, by decide⟩, ⟨2024, 2, 29, by decide⟩⟩
    let contents : List (List (Row Nat)) := [[⟨2, 0, 1⟩, ⟨1, 0, 2⟩], [⟨1, 0, 1⟩, ⟨1, 0, 2⟩]]
    ∃ c period first second, (compile .default registry r).result = .ok c ∧
      let s : Setting := ⟨.default, period, some "region"⟩
      runSteps [] ((((s.plans (registry.table "shop" "_user") r.steps).map StepPlan.body).mapIdx
        s.stepQuery).zip contents) = some (named [first, second]) ∧
      ⟨1, 0, 2⟩ ∈ second ∧ ⟨1, 0, 1⟩ ∉ second ∧ (users second).length ≤ (users first).length := by
  intro registry r contents
  let period : Period := ⟨⟨2024, 2, 1, by decide⟩, ⟨2024, 3, 1, by decide⟩⟩
  have hcheck : Request.check .default r = .ok period := by decide
  have hc := compile_of_check registry hcheck
  obtain ⟨period', -, -, -, hrows⟩ := mem_runSteps_iff hc
  obtain ⟨results, hlength, hrun, hmem, husers⟩ := hrows Nat contents rfl
  obtain ⟨first, second, rfl⟩ := List.length_eq_two.1 hlength
  refine ⟨_, period', first, second, hc, hrun, ?_, ?_, (husers 0 Nat.one_lt_two).2.1⟩
  · refine (hmem 1 Nat.one_lt_two ⟨1, 0, 2⟩).2 ⟨fun _ ↦ ⟨1, 0, 2⟩, rfl, ?_, ?_, ?_⟩
    · intro j hj
      obtain rfl | rfl : j = 0 ∨ j = 1 := by omega
      · exact ⟨_, rfl, by simp⟩
      · exact ⟨_, rfl, by simp⟩
    · exact fun j _ ↦ ⟨rfl, fun _ ↦ rfl⟩
    · exact fun j k _ _ ↦ Nat.le_refl 1
  · intro hin
    obtain ⟨path, hend, hpath, hsame, hdays⟩ := (hmem 1 Nat.one_lt_two ⟨1, 0, 1⟩).1 hin
    obtain ⟨rows, hrows, hfirst⟩ := hpath 0 (by omega)
    obtain rfl : [⟨2, 0, 1⟩, ⟨1, 0, 2⟩] = rows := Option.some.inj hrows
    have huser : (path 0).user = 1 := (hsame 0 (by omega)).1
    have hday : (path 0).day ≤ 1 := by simpa [hend] using hdays 0 1 (by omega) (by omega)
    rcases List.mem_cons.1 hfirst with h | h
    · simp [h] at hday
    · simp [List.mem_singleton.1 h] at huser

end Funnel
