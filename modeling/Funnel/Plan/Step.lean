import Funnel.Filter.Render
import Funnel.Plan.Select
import Funnel.Request

/-!
# Plans for steps

Where the users of a step are read from.  A step without a filter is served by the table of its
collection.  A step with a filter is served by the tables of the columns of the filter, joined with
the raw events if a column has no table; a dimension that the filter does not mention comes from a
table of its own.  Whatever else cannot be served is counted from raw events, and the user sets
whose tables were missed are reported.

`Step.wanted` lists the user sets that a step needs tables for, and a plan depends on the tables of
those alone.
-/

namespace Funnel

/-- What the plan of a step depends on besides the step and the tables. -/
structure Setting where
  config : Config
  period : Period
  dimension : Option String

/-- The query of a step, and the user sets for which it had no table. -/
structure StepPlan where
  body : Body
  missing : List UserSet
deriving DecidableEq

/-- The column under which a step shows its dimension. -/
def bucketColumn : String := "dimension"

/-- The user sets that a step needs tables for, in the order in which they are looked up. -/
def Step.wanted (dimension : Option String) (step : Step) : List UserSet :=
  match step.filter with
  | none => [⟨step.collection, dimension⟩]
  | some f =>
    let unmentioned := dimension.filter fun d ↦ f.supported && !f.mentions d
    f.columns.map (fun x ↦ ⟨step.collection, some x⟩) ++
      unmentioned.toList.map (fun d ↦ ⟨step.collection, some d⟩)

namespace Setting

variable (s : Setting)

/-! ## Simple queries -/

/-- The users of a collection per day, counted from raw events. -/
def fromEvents (collection : String) (dimension condition : Option String) : Select Source where
  columns :=
    ⟨.day none s.config.timeColumn, some s.config.dateColumn⟩ ::
      dimension.toList.map (fun d ↦ ⟨.column none d, some bucketColumn⟩) ++
      [⟨.column none s.config.connectorField, none⟩]
  base := .events collection
  joins := []
  predicates :=
    .within (.column none s.config.timeColumn) s.period :: condition.toList.map .condition
  grouped := true

/-- The users that a table lists. -/
def fromTable (t : DailyTable) : Select Source where
  columns :=
    ⟨.column none s.config.dateColumn, none⟩ ::
      s.dimension.toList.map (fun d ↦ ⟨.column none d, some bucketColumn⟩) ++
      [⟨.column none s.config.connectorField, none⟩]
  base := .table t
  joins := []
  predicates := [.within (.column none s.config.dateColumn) s.period]
  grouped := false

/-- A table, joined by day and user. -/
def joinTable (day user : Scalar Source) (t : DailyTable) : Join Source :=
  ⟨.table t, [(.column (some (.table t)) s.config.dateColumn, day),
    (.column (some (.table t)) s.config.connectorField, user)]⟩

/-- The users that pass a condition over tables that are joined to a base.  `day` is the day of a
row of the base, and `moment` the column of it that the period restricts. -/
def fromJoined (base : Source) (day moment : Scalar Source) (tables : List DailyTable)
    (bucket : Option (Scalar Source)) (condition : String) : Select Source where
  columns :=
    ⟨day, some s.config.dateColumn⟩ ::
      bucket.toList.map (fun b ↦ ⟨b, some bucketColumn⟩) ++
      [⟨.column (some base) s.config.connectorField, some s.config.connectorField⟩]
  base := base
  joins := tables.map (s.joinTable day (.column (some base) s.config.connectorField))
  predicates := [.within moment s.period, .condition condition]
  grouped := true

/-! ## Outer queries -/

/-- The users that pass a filter, broken down by a dimension that another table has. -/
def withDimension (t : DailyTable) (dimension : String) (inner : Select Source) : Select Part :=
  let daily (name : String) : Scalar Part := .column (some (.daily t)) name
  let filtered (name : String) : Scalar Part := .column (some (.filtered inner)) name
  let date := s.config.dateColumn
  let user := s.config.connectorField
  { columns := [⟨daily date, some date⟩, ⟨daily dimension, some bucketColumn⟩,
      ⟨daily user, some user⟩]
    base := .daily t
    joins := [⟨.filtered inner, [(filtered date, daily date), (filtered user, daily user)]⟩]
    predicates := [.within (daily date) s.period]
    grouped := true }

/-! ## Filters over tables -/

section Filtered

variable (find : UserSet → Option DailyTable) (collection : String) (f : Filter)

/-- The table of the collection by a column. -/
def columnTable (x : String) : Option DailyTable := find ⟨collection, some x⟩

/-- The tables of the columns of a filter. -/
def coveringTables : List DailyTable := f.columns.filterMap (columnTable find collection)

/-- The columns of a filter that have no table. -/
def uncoveredColumns : List String :=
  f.columns.filter fun x ↦ (columnTable find collection x).isNone

/-- Where a column of a filter is read from.  It is named only if a table is read at all. -/
def columnSource (x : String) : Option Source :=
  match columnTable find collection x with
  | some t => some (.table t)
  | none =>
    if (coveringTables find collection f).isEmpty then none else some (.events collection)

/-- Where a dimension that the filter mentions is read from, if a table is read at all. -/
def bucketSource (dimension : String) : Source :=
  match columnTable find collection dimension with
  | some t => .table t
  | none => .events collection

/-- The users that pass a filter whose text is given, with the dimension that is to be shown. -/
def filtered (condition : String) (shown : Option String) : Select Source :=
  match coveringTables find collection f with
  | [] => s.fromEvents collection shown (some condition)
  | first :: others =>
    let bucket := shown.map fun d ↦ Scalar.column (some (bucketSource find collection d)) d
    if (uncoveredColumns find collection f).isEmpty then
      let base := Source.table first
      let day := Scalar.column (some base) s.config.dateColumn
      s.fromJoined base day day others bucket condition
    else
      let base := Source.events collection
      let time := s.config.timeColumn
      s.fromJoined base (.day (some base) time) (.column (some base) time) (first :: others)
        bucket condition

end Filtered

/-! ## Steps -/

variable (find : UserSet → Option DailyTable) (collection : String)

/-- The plan of a step without a filter. -/
def planUnfiltered : StepPlan :=
  match find ⟨collection, s.dimension⟩ with
  | some t => ⟨.simple (s.fromTable t), []⟩
  | none => ⟨.simple (s.fromEvents collection s.dimension none), [⟨collection, s.dimension⟩]⟩

/-- The plan of a step with a filter.  If the columns of the filter cannot be read from tables, no
column counts as missing. -/
def planFiltered (f : Filter) : StepPlan :=
  let qualifier (x : String) := (columnSource find collection f x).map Source.name
  match f.rewriteWith qualifier with
  | .error _ =>
    ⟨.simple (s.fromEvents collection s.dimension (some f.render)), [⟨collection, s.dimension⟩]⟩
  | .ok condition =>
    let missing := (uncoveredColumns find collection f).map
      (s.config.fallback.userSet collection s.dimension)
    let query := s.filtered find collection f condition
    match s.dimension with
    | none => ⟨.simple (query none), missing⟩
    | some d =>
      if f.mentions d then ⟨.simple (query (some d)), missing⟩
      else
        match columnTable find collection d with
        | some t => ⟨.outer (s.withDimension t d (query none)), missing⟩
        | none =>
          ⟨.simple (s.fromEvents collection (some d) (some f.render)),
            missing ++ [⟨collection, some d⟩]⟩

/-- The plan of a step. -/
def plan (step : Step) : StepPlan :=
  match step.filter with
  | none => s.planUnfiltered find step.collection
  | some f => s.planFiltered find step.collection f

end Setting

end Funnel
