import Funnel.Calendar.DateText
import Funnel.Config
import Funnel.Filter.Parse

/-!
# Requests

A funnel is a list of steps over a period: events of a collection, with an optional filter.  With a
dimension the users of each step are broken down by its values.
-/

namespace Funnel

structure Step where
  collection : String
  filter : Option Filter
deriving DecidableEq

namespace Step

/-- The step with a filter text; a text that is no filter is left out. -/
def lenient (collection : String) (filter : Option String) : Step :=
  ⟨collection, filter.bind fun text ↦ (Filter.parse text).toOption⟩

/-- The step with a filter text, which has to be a filter. -/
def strict (collection : String) (filter : Option String) : Except FilterError Step :=
  match filter with
  | none => .ok ⟨collection, none⟩
  | some text => (Filter.parse text).map fun f ↦ ⟨collection, some f⟩

end Step

/-- A filter text that is left out of a step because it is no filter. -/
structure Ignored where
  collection : String
  text : String
  cause : FilterError
deriving DecidableEq

/-- A step as it is written. -/
structure StepText where
  collection : String
  filter : Option String
deriving DecidableEq, Repr

namespace StepText

def step (t : StepText) : Step := .lenient t.collection t.filter

/-- The filter text, if the step leaves it out. -/
def ignored? (t : StepText) : Option Ignored :=
  t.filter.bind fun text ↦
    match Filter.parse text with
    | .ok _ => none
    | .error cause => some ⟨t.collection, text, cause⟩

def ofJson? (v : Json.Value) : Option StepText := do
  let r ← v.record? ["collection", "filter"]
  return {
    collection := ← Json.required r "collection" Json.Value.text?
    filter := ← Json.optional r "filter" Json.Value.optionalText? none }

end StepText

structure Request where
  project : String
  steps : List Step
  dimension : Option String
  startDate : Date
  endDate : Date
deriving DecidableEq

/-- What is wrong with a request. -/
inductive RequestFault
  | noSteps
  | dimensionIsConnector
  | blankDimension
  | dimensionIsResult (dimension : String)
  | reversedDates (startDate endDate : Date)
  /-- Steps are counted from 1. -/
  | blankCollection (step : Nat)
deriving DecidableEq

def RequestFault.text : RequestFault → String
  | noSteps => "funnel needs at least one step"
  | dimensionIsConnector => "dimension and connector field cannot be equal"
  | blankDimension => "dimension name is empty"
  | dimensionIsResult dimension =>
    "dimension \x60" ++ dimension ++ "\x60 clashes with a result column"
  | reversedDates startDate endDate =>
    "start date " ++ startDate.text ++ " is after end date " ++ endDate.text
  | blankCollection step => "step " ++ toString step ++ " has an empty collection name"

namespace Request

/-- The columns of a result besides the dimension. -/
def resultColumns : List String := ["step", "step_index", "user_count"]

/-- What is wrong with a dimension. -/
def dimensionFault? (config : Config) (dimension : String) : Option RequestFault :=
  if dimension = config.connectorField then some .dimensionIsConnector
  else if Text.allBlank dimension then some .blankDimension
  else if resultColumns.any (Text.sameIgnoringCase dimension) then
    some (.dimensionIsResult dimension)
  else none

/-- The first step whose collection has no name. -/
def collectionFault? (steps : List Step) : Option RequestFault :=
  (steps.findIdx? fun step ↦ Text.allBlank step.collection).map fun i ↦ .blankCollection (i + 1)

/-- The first fault of a request. -/
def fault? (config : Config) (r : Request) : Option RequestFault :=
  if r.steps.isEmpty then some .noSteps
  else
    r.dimension.bind (dimensionFault? config) <|>
    (if r.endDate < r.startDate then some (.reversedDates r.startDate r.endDate) else none) <|>
    collectionFault? r.steps

end Request

/-! ## Requests as they are written -/

structure RequestText where
  project : String
  steps : List StepText
  dimension : Option String
  startDate : Date
  endDate : Date
deriving DecidableEq

namespace RequestText

def request (t : RequestText) : Request :=
  ⟨t.project, t.steps.map StepText.step, t.dimension, t.startDate, t.endDate⟩

def ofJson? (v : Json.Value) : Option RequestText := do
  let date? (v : Json.Value) : Option Date := v.text? >>= Date.read?
  let r ← v.record? ["project", "steps", "dimension", "start_date", "end_date"]
  return {
    project := ← Json.required r "project" Json.Value.text?
    steps := ← Json.required r "steps" (Json.Value.list? StepText.ofJson?)
    dimension := ← Json.optional r "dimension" Json.Value.optionalText? none
    startDate := ← Json.required r "start_date" date?
    endDate := ← Json.required r "end_date" date? }

end RequestText

def Request.ofJson? (v : Json.Value) : Option Request :=
  (RequestText.ofJson? v).map RequestText.request

end Funnel
