import Funnel.Compile
import Mathlib

/-!
# The Texts of a Statement

A statement letter by letter.  A query is built in one of four ways, and the texts here say for each
of them what it shows, what it reads and what it keeps (`parts_fromEvents` and the lemmas after it).
The queries stand in the named queries of a statement, each behind the conditions that link it with
the one before, and the counts of the named queries make up the result
(`statementSql_eq_statementText`).
-/

namespace Funnel

/-! ## Queries -/

/-- The numbers from 1, as positions are written. -/
def positions (count : Nat) : String :=
  ", ".intercalate ((List.range count).map fun i ↦ toString (i + 1))

/-- The parts of a query as they are written. -/
@[ext]
structure QueryText where
  shown : List String
  source : String
  kept : List String
  /-- The query is grouped by all that it shows. -/
  grouped : Bool
deriving DecidableEq

def QueryText.text (q : QueryText) : String :=
  "SELECT " ++ ", ".intercalate q.shown ++ " FROM " ++ q.source ++ " WHERE " ++
    " AND ".intercalate q.kept ++
    if q.grouped then " GROUP BY " ++ positions q.shown.length else ""

/-- A column lies in a period. -/
def rangeText (period : Period) (column : String) : String :=
  column ++ " >= cast('" ++ period.first.text ++ "' as date) AND " ++
    column ++ " < cast('" ++ period.afterLast.text ++ "' as date)"

namespace Setting

variable (s : Setting)

/-- The users per day among the raw events of a collection. -/
def eventsText (collection : String) (bucket condition : Option String) : QueryText where
  shown :=
    ("cast(" ++ s.config.timeColumn ++ " as date) AS " ++ s.config.dateColumn) ::
      bucket.toList.map (· ++ " AS dimension") ++ [s.config.connectorField]
  source := collection
  kept :=
    rangeText s.period s.config.timeColumn :: condition.toList.map fun c ↦ "(" ++ c ++ ")"
  grouped := true

/-- The users that a table lists. -/
def tableText (table : String) : QueryText where
  shown :=
    s.config.dateColumn :: s.dimension.toList.map (· ++ " AS dimension") ++
      [s.config.connectorField]
  source := table
  kept := [rangeText s.period s.config.dateColumn]
  grouped := false

/-- The column that a period restricts: raw events have a time, and tables have days. -/
def momentName (collection item : String) : String :=
  if item = collection then s.config.timeColumn else s.config.dateColumn

/-- The day of a row of the raw events or of a table. -/
def dayText (collection item : String) : String :=
  if item = collection then "cast(" ++ item ++ "." ++ s.config.timeColumn ++ " as date)"
  else item ++ "." ++ s.config.dateColumn

/-- Tables that are joined to a base by day and user. -/
def joinedSource (collection base : String) (joined : List String) : String :=
  base ++ String.join (joined.map fun table ↦
    " JOIN " ++ table ++ " ON (" ++
      table ++ "." ++ s.config.dateColumn ++ " = " ++ s.dayText collection base ++ " AND " ++
      table ++ "." ++ s.config.connectorField ++ " = " ++
        base ++ "." ++ s.config.connectorField ++ ")")

/-- The users that pass a condition over tables that are joined to a base.  The bucket is a column
of one of them. -/
def joinedText (collection base : String) (joined : List String)
    (bucket : Option (String × String)) (condition : String) : QueryText where
  shown :=
    (s.dayText collection base ++ " AS " ++ s.config.dateColumn) ::
      bucket.toList.map (fun (item, d) ↦ item ++ "." ++ d ++ " AS dimension") ++
      [base ++ "." ++ s.config.connectorField ++ " AS " ++ s.config.connectorField]
  source := s.joinedSource collection base joined
  kept :=
    [rangeText s.period (base ++ "." ++ s.momentName collection base), "(" ++ condition ++ ")"]
  grouped := true

/-- The users of an inner query, broken down by a dimension that a table has. -/
def aroundText (table dimension inner : String) : QueryText where
  shown :=
    ["daily." ++ s.config.dateColumn ++ " AS " ++ s.config.dateColumn,
      "daily." ++ dimension ++ " AS dimension",
      "daily." ++ s.config.connectorField ++ " AS " ++ s.config.connectorField]
  source :=
    table ++ " daily JOIN (" ++ inner ++ ") filtered ON (filtered." ++ s.config.dateColumn ++
      " = daily." ++ s.config.dateColumn ++ " AND filtered." ++ s.config.connectorField ++
      " = daily." ++ s.config.connectorField ++ ")"
  kept := [rangeText s.period ("daily." ++ s.config.dateColumn)]
  grouped := true

end Setting

/-! ### What is written for a query -/

section Parts

variable {ι : Type} [FromItem ι]

/-- The parts of the text of a query. -/
def Select.parts (q : Select ι) : QueryText where
  shown := q.columns.map Output.sql
  source := FromItem.declaration q.base ++ String.join (q.joins.map Join.sql)
  kept := q.predicates.map Predicate.sql
  grouped := q.grouped

theorem Select.sql_eq_text_parts (q : Select ι) : q.sql = q.parts.text := by
  simp only [sql, groupSql, QueryText.text, parts, positions, List.length_map, String.append_assoc]

theorem Predicate.sql_within (column : Scalar ι) (period : Period) :
    (within column period).sql = rangeText period column.sql := by
  apply String.toList_injective
  simp [sql, dateLiteral, rangeText]

theorem Output.sql_bucket (value : Scalar ι) :
    sql ⟨value, some bucketColumn⟩ = value.sql ++ " AS dimension" := by
  apply String.toList_injective
  simp [sql, bucketColumn]

theorem Output.sql_day (column name : String) :
    sql ⟨(.day none column : Scalar ι), some name⟩ =
      "cast(" ++ column ++ " as date) AS " ++ name := by
  apply String.toList_injective
  simp [sql, Scalar.sql, qualifiedName]

end Parts

def Body.parts : Body → QueryText
  | simple q => q.parts
  | outer q => q.parts

theorem Body.sql_eq_text_parts (b : Body) : b.sql = b.parts.text := by
  cases b <;> exact Select.sql_eq_text_parts _

namespace Setting

variable {s : Setting}

theorem parts_fromEvents (collection : String) (bucket condition : Option String) :
    (s.fromEvents collection bucket condition).parts =
      s.eventsText collection bucket condition := by
  have hsource : FromItem.declaration (Source.events collection) ++ String.join [] = collection :=
    String.append_empty
  unfold Select.parts fromEvents eventsText
  simp only [List.map_nil, hsource]
  cases bucket <;> cases condition <;>
    simp only [Option.toList_none, Option.toList_some, List.map_cons, List.map_nil,
      List.cons_append, List.nil_append, Output.sql_day, Output.sql_bucket,
      Predicate.sql_within] <;>
    rfl

theorem parts_fromTable (t : DailyTable) : (s.fromTable t).parts = s.tableText t.qualified := by
  have hsource : FromItem.declaration (Source.table t) ++ String.join [] = t.qualified :=
    String.append_empty
  unfold Select.parts fromTable tableText
  simp only [List.map_nil, hsource]
  cases s.dimension <;>
    simp only [Option.toList_none, Option.toList_some, List.map_cons, List.map_nil,
      List.cons_append, List.nil_append, Output.sql_bucket, Predicate.sql_within] <;>
    rfl

/-- A table is joined by the names of the table and of the base. -/
theorem sql_joinTable {base : Source} {day : Scalar Source} {collection : String}
    (hday : day.sql = s.dayText collection base.name) (t : DailyTable) :
    (s.joinTable day (.column (some base) s.config.connectorField) t).sql =
      " JOIN " ++ t.qualified ++ " ON (" ++
        t.qualified ++ "." ++ s.config.dateColumn ++ " = " ++ s.dayText collection base.name ++
        " AND " ++
        t.qualified ++ "." ++ s.config.connectorField ++ " = " ++
          base.name ++ "." ++ s.config.connectorField ++ ")" := by
  have hcolumn (i : Source) (name : String) :
      (Scalar.column (some i) name).sql = i.name ++ "." ++ name := rfl
  have htable : FromItem.declaration (Source.table t) = t.qualified := rfl
  simp only [Join.sql, joinTable, htable, hcolumn, Source.name, hday, List.map_cons, List.map_nil,
    String.intercalate_cons_cons, String.intercalate_singleton, String.append_assoc]

theorem parts_fromJoined {base : Source} {day moment : Scalar Source} {collection : String}
    (hday : day.sql = s.dayText collection base.name)
    (hmoment : moment.sql = base.name ++ "." ++ s.momentName collection base.name)
    (tables : List DailyTable) (shown : Option String) (source : String → Source)
    (condition : String) :
    (s.fromJoined base day moment tables (shown.map fun d ↦ .column (some (source d)) d)
        condition).parts =
      s.joinedText collection base.name (tables.map DailyTable.qualified)
        (shown.map fun d ↦ ((source d).name, d)) condition := by
  have hsource : FromItem.declaration base ++ String.join ((tables.map
        (s.joinTable day (.column (some base) s.config.connectorField))).map Join.sql) =
      s.joinedSource collection base.name (tables.map DailyTable.qualified) := by
    simp only [joinedSource, List.map_map, Function.comp_def, sql_joinTable hday]
    rfl
  unfold Select.parts fromJoined joinedText
  rw [hsource]
  cases shown <;>
    simp only [Option.map_none, Option.map_some, Option.toList_none, Option.toList_some,
      List.map_cons, List.map_nil, List.cons_append, List.nil_append, Output.sql_bucket,
      Predicate.sql_within, hmoment, ← hday] <;>
    rfl

theorem parts_withDimension (t : DailyTable) (d : String) (inner : Select Source) :
    (s.withDimension t d inner).parts = s.aroundText t.qualified d inner.sql := by
  have hsource : (s.withDimension t d inner).parts.source =
      (s.aroundText t.qualified d inner.sql).source := by
    apply String.toList_injective
    simp [Select.parts, withDimension, aroundText, Join.sql, Scalar.sql, qualifiedName,
      FromItem.declaration, FromItem.qualifier]
  have hshown : (s.withDimension t d inner).parts.shown =
      (s.aroundText t.qualified d inner.sql).shown := by
    simp only [Select.parts, withDimension, List.map_cons, List.map_nil, Output.sql_bucket]
    rfl
  have hkept : (s.withDimension t d inner).parts.kept =
      (s.aroundText t.qualified d inner.sql).kept := by
    simp only [Select.parts, withDimension, List.map_cons, List.map_nil, Predicate.sql_within]
    rfl
  exact QueryText.ext hshown hsource hkept rfl

end Setting

/-! ## The named queries -/

section Texts

variable (config : Config)

/-- The name of a column of the steps. -/
def StepColumn.text : StepColumn → String
  | .day => config.dateColumn
  | .bucket => "dimension"
  | .user => config.connectorField

def StepValue.text (v : StepValue) : String :=
  "step" ++ toString v.step ++ "." ++ v.column.text config

def LinkCondition.text (c : LinkCondition) : String :=
  match c.comparison with
  | .notBefore => c.left.text config ++ " >= " ++ c.right.text config
  | .equal => c.left.text config ++ " = " ++ c.right.text config

/-- A named query: the rows of its body, joined with those of the query that it is linked with where
all conditions hold. -/
def StepQuery.text (q : StepQuery) : String :=
  let name := "step" ++ toString q.index
  let link := match q.link with
    | none => ""
    | some l =>
      let other := "step" ++ toString l.step
      " JOIN " ++ other ++ " ON (" ++
        " AND ".intercalate (l.conditions.map (LinkCondition.text config)) ++ ")"
  name ++ " AS (SELECT " ++ name ++ ".* FROM (" ++ q.body.sql ++ ") " ++ name ++ link ++ ")"

end Texts

/-! ## The statement -/

namespace Setting

variable (s : Setting)

/-- The named query of a step, which is linked with the one before by the columns of both.  They
are called `date`, `bucket` and `user`. -/
def stepText (date bucket user : String) (i : Nat) (query : String) : String :=
  let name := "step" ++ toString i
  let link := match i with
    | 0 => ""
    | p + 1 =>
      let previous := "step" ++ toString p
      " JOIN " ++ previous ++ " ON (" ++
        name ++ "." ++ date ++ " >= " ++ previous ++ "." ++ date ++
        (if s.dimension.isSome then
          " AND " ++ name ++ "." ++ bucket ++ " = " ++ previous ++ "." ++ bucket else "") ++
        " AND " ++ name ++ "." ++ user ++ " = " ++ previous ++ "." ++ user ++ ")"
  name ++ " AS (SELECT " ++ name ++ ".* FROM (" ++ query ++ ") " ++ name ++ link ++ ")"

/-- The count of a step: its users, or its users by bucket, where all but the first buckets count
as one. -/
def countText (bucket user : String) (i : Nat) : String :=
  let name := "step" ++ toString i
  let label := toString i ++ " AS step_index, 'Step " ++ toString (i + 1) ++ "' AS step"
  let users := "count(DISTINCT " ++ user ++ ")"
  match s.dimension with
  | none => "(SELECT " ++ label ++ ", " ++ users ++ " AS user_count FROM " ++ name ++ ")"
  | some d =>
    let value := "CASE WHEN bucket_rank > " ++ toString s.config.topBuckets ++
      " THEN 'Others' ELSE cast(" ++ bucket ++ " AS varchar) END"
    let ranked := "SELECT " ++ label ++ ", " ++ bucket ++ ", " ++ users ++
      " AS user_count, row_number() OVER (ORDER BY " ++ users ++ " DESC) AS bucket_rank FROM " ++
      name ++ " GROUP BY " ++ bucket
    "(SELECT step_index, step, " ++ value ++ " AS " ++ d ++
      ", sum(user_count) AS user_count FROM (" ++ ranked ++ ") ranked GROUP BY 1, 2, 3)"

/-- The result over the counts of all steps. -/
def resultText (bucket user : String) (steps : Nat) : String :=
  let counts := "\nUNION ALL\n".intercalate ((List.range steps).map (s.countText bucket user))
  match s.dimension with
  | none => "SELECT step, user_count FROM (" ++ counts ++ ") funnel ORDER BY step_index ASC"
  | some d =>
    "SELECT step, " ++ d ++ ", user_count FROM (" ++ counts ++
      ") funnel ORDER BY step_index ASC, user_count DESC"

/-- A statement over the queries of its steps, whose columns are called `date`, `bucket` and
`user`. -/
def statementText (date bucket user : String) (queries : List String) : String :=
  "WITH " ++ ",\n".intercalate (queries.mapIdx (s.stepText date bucket user)) ++ "\n" ++
    s.resultText bucket user queries.length

variable {s}

theorem countSql_eq_countText (i : Nat) :
    s.countSql i = s.countText "dimension" s.config.connectorField i := by
  unfold countSql countText
  cases s.dimension with
  | none => rfl
  | some d =>
    -- The texts with the name of the bucket inside them, taken apart around it.
    have hcast : " THEN 'Others' ELSE cast(dimension AS varchar) END" =
      " THEN 'Others' ELSE cast(" ++ ("dimension" ++ " AS varchar) END") := by decide +kernel
    have hshown : ", dimension, " = ", " ++ ("dimension" ++ ", ") := by decide +kernel
    have hgroup : " GROUP BY dimension" = " GROUP BY " ++ "dimension" := by decide +kernel
    have hrank : " AS user_count, row_number() OVER (ORDER BY " =
      " AS user_count, " ++ "row_number() OVER (ORDER BY " := by decide +kernel
    dsimp only
    unfold bucketsSql bucketSql rankedSql userCount labelSql stepName
    rw [hcast, hshown, hgroup, hrank]
    simp only [String.append_assoc]

theorem resultSql_eq_resultText (steps : Nat) :
    s.resultSql ("\nUNION ALL\n".intercalate ((List.range steps).map s.countSql)) =
      s.resultText "dimension" s.config.connectorField steps := by
  have hcounts : s.countSql = s.countText "dimension" s.config.connectorField :=
    funext countSql_eq_countText
  rw [hcounts]
  rfl

theorem valueSql_eq_text (v : StepValue) : s.valueSql v = v.text s.config := by
  obtain ⟨i, column⟩ := v
  cases column <;> rfl

theorem conditionSql_eq_text (c : LinkCondition) : s.conditionSql c = c.text s.config := by
  obtain ⟨left, comparison, right⟩ := c
  apply String.toList_injective
  cases comparison <;> simp [conditionSql, LinkCondition.text, Comparison.sql, valueSql_eq_text]

theorem stepSql_eq_text (q : StepQuery) : s.stepSql q = q.text s.config := by
  have hconditions : s.conditionSql = LinkCondition.text s.config := funext conditionSql_eq_text
  unfold stepSql StepQuery.text linkSql
  rw [hconditions]
  rfl

/-- The statement is the texts of its named queries and of the result. -/
theorem statementSql_eq_texts (bodies : List Body) :
    s.statementSql bodies =
      "WITH " ++ ",\n".intercalate ((bodies.mapIdx s.stepQuery).map (StepQuery.text s.config)) ++
        "\n" ++ s.resultText "dimension" s.config.connectorField bodies.length := by
  have hsteps : s.stepSql = StepQuery.text s.config := funext stepSql_eq_text
  simp only [statementSql, hsteps, resultSql_eq_resultText]

/-- The text of a named query whose link is that of a step to the step before. -/
theorem text_stepQuery (i : Nat) (body : Body) :
    (s.stepQuery i body).text s.config =
      s.stepText s.config.dateColumn "dimension" s.config.connectorField i body.sql := by
  cases i with
  | zero => rfl
  | succ p =>
    unfold StepQuery.text stepText
    cases hdim : s.dimension.isSome <;>
      simp only [stepQuery, Link.toPrevious, linkConditions, hdim, LinkCondition.text,
        StepValue.text, StepColumn.text, Bool.false_eq_true, if_false, if_true, List.cons_append,
        List.nil_append, List.map_cons, List.map_nil, String.intercalate_cons_cons,
        String.intercalate_singleton, String.append_assoc, String.empty_append]

theorem statementSql_eq_statementText (bodies : List Body) :
    s.statementSql bodies =
      s.statementText s.config.dateColumn "dimension" s.config.connectorField
        (bodies.map Body.sql) := by
  have hsteps : (bodies.mapIdx s.stepQuery).map (StepQuery.text s.config) =
      (bodies.map Body.sql).mapIdx
        (s.stepText s.config.dateColumn "dimension" s.config.connectorField) := by
    apply List.ext_getElem?
    intro i
    simp [List.getElem?_mapIdx, Function.comp_def, text_stepQuery]
  rw [statementSql_eq_texts, hsteps, statementText, List.length_map]

/-- Without a dimension, no text is about buckets. -/
theorem statementText_congr {date bucket bucket' user : String}
    (h : s.dimension.isSome = true → bucket = bucket') (queries : List String) :
    s.statementText date bucket user queries = s.statementText date bucket' user queries := by
  cases hdim : s.dimension with
  | some d => rw [h (by rw [hdim]; rfl)]
  | none =>
    have hstep : s.stepText date bucket user = s.stepText date bucket' user := by
      funext i query
      simp [stepText, hdim]
    have hcount : s.countText bucket user = s.countText bucket' user := by
      funext i
      simp [countText, hdim]
    simp only [statementText, resultText, hstep, hcount]

end Setting

end Funnel
