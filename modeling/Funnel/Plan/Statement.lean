import Funnel.Plan.Step

/-!
# The statement of a funnel

Each step is a named query: its rows, joined with the rows of the step before.  A row stays only if
the same user, in the same bucket if there is a dimension, has a row in the step before on the same
or an earlier day.  The steps are counted one by one and the counts put together.
-/

namespace Funnel

/-! ## Steps -/

/-- The columns that every step shows; without a dimension there is no bucket. -/
inductive StepColumn
  | day
  | bucket
  | user
deriving DecidableEq, Repr

/-- How the value of a row compares with the value of a row of the step before. -/
inductive Comparison
  | notBefore
  | equal
deriving DecidableEq, Repr

def Comparison.sql : Comparison → String
  | notBefore => ">="
  | equal => "="

/-- What ties a row of a step to a row of the step before. -/
def linkConditions (bucketed : Bool) : List (StepColumn × Comparison) :=
  (.day, .notBefore) :: (if bucketed then [(.bucket, .equal)] else []) ++ [(.user, .equal)]

/-- The value that a row of a step has in a column; steps count from 0. -/
structure StepValue where
  step : Nat
  column : StepColumn
deriving DecidableEq, Repr

structure LinkCondition where
  left : StepValue
  comparison : Comparison
  right : StepValue
deriving DecidableEq, Repr

/-- The step that another one is joined with, and the conditions on a pair of their rows. -/
structure Link where
  step : Nat
  conditions : List LinkCondition
deriving DecidableEq, Repr

/-- The link of a step to the step before. -/
def Link.toPrevious (bucketed : Bool) (previous : Nat) : Link where
  step := previous
  conditions := (linkConditions bucketed).map fun (column, comparison) ↦
    ⟨⟨previous + 1, column⟩, comparison, ⟨previous, column⟩⟩

/-- A step as a named query. -/
structure StepQuery where
  index : Nat
  body : Body
  link : Option Link
deriving DecidableEq

/-- The name of the query of a step. -/
def stepName (i : Nat) : String := "step" ++ toString i

namespace Setting

variable (s : Setting)

/-- Every step but the first is joined with the one before. -/
def stepQuery (i : Nat) (body : Body) : StepQuery where
  index := i
  body := body
  link := match i with
    | 0 => none
    | previous + 1 => some (.toPrevious s.dimension.isSome previous)

def columnName : StepColumn → String
  | .day => s.config.dateColumn
  | .bucket => bucketColumn
  | .user => s.config.connectorField

def valueSql (v : StepValue) : String := stepName v.step ++ "." ++ s.columnName v.column

def conditionSql (c : LinkCondition) : String :=
  s.valueSql c.left ++ " " ++ c.comparison.sql ++ " " ++ s.valueSql c.right

def linkSql (l : Link) : String :=
  " JOIN " ++ stepName l.step ++ " ON (" ++
    " AND ".intercalate (l.conditions.map s.conditionSql) ++ ")"

def stepSql (q : StepQuery) : String :=
  let name := stepName q.index
  let link := match q.link with
    | none => ""
    | some l => s.linkSql l
  name ++ " AS (SELECT " ++ name ++ ".* FROM (" ++ q.body.sql ++ ") " ++ name ++ link ++ ")"

/-! ## Counts -/

/-- The columns that tell the steps apart in a result. -/
def labelSql (i : Nat) : String :=
  toString i ++ " AS step_index, 'Step " ++ toString (i + 1) ++ "' AS step"

def userCount : String := "count(DISTINCT " ++ s.config.connectorField ++ ")"

/-- The bucket of a value: its own if it ranks high enough, otherwise the common one. -/
def bucketSql : String :=
  "CASE WHEN bucket_rank > " ++ toString s.config.topBuckets ++
    " THEN 'Others' ELSE cast(dimension AS varchar) END"

/-- The number of users of a step. -/
def totalSql (i : Nat) : String :=
  "(SELECT " ++ labelSql i ++ ", " ++ s.userCount ++ " AS user_count FROM " ++ stepName i ++ ")"

/-- The values of the dimension in a step, ranked by their numbers of users. -/
def rankedSql (i : Nat) : String :=
  "SELECT " ++ labelSql i ++ ", dimension, " ++ s.userCount ++ " AS user_count, " ++
    "row_number() OVER (ORDER BY " ++ s.userCount ++ " DESC) AS bucket_rank FROM " ++
    stepName i ++ " GROUP BY dimension"

/-- The number of users of a step by bucket. -/
def bucketsSql (dimension : String) (i : Nat) : String :=
  "(SELECT step_index, step, " ++ s.bucketSql ++ " AS " ++ dimension ++
    ", sum(user_count) AS user_count FROM (" ++ s.rankedSql i ++ ") ranked GROUP BY 1, 2, 3)"

def countSql (i : Nat) : String :=
  match s.dimension with
  | none => s.totalSql i
  | some d => s.bucketsSql d i

/-! ## Result -/

/-- The columns of the result and their order. -/
def resultSql (counts : String) : String :=
  match s.dimension with
  | none =>
    "SELECT step, user_count FROM (" ++ counts ++ ") funnel ORDER BY step_index ASC"
  | some d =>
    "SELECT step, " ++ d ++ ", user_count FROM (" ++ counts ++
      ") funnel ORDER BY step_index ASC, user_count DESC"

/-- The statement that counts a funnel with these steps. -/
def statementSql (bodies : List Body) : String :=
  let steps := (bodies.mapIdx s.stepQuery).map s.stepSql
  let counts := (List.range bodies.length).map s.countSql
  "WITH " ++ ",\n".intercalate steps ++ "\n" ++ s.resultSql ("\nUNION ALL\n".intercalate counts)

end Setting

end Funnel
