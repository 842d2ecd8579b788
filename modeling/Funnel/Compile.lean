import Funnel.Catalog.Lookup
import Funnel.Catalog.Unresolved
import Funnel.Plan.Statement

/-!
# Compiling funnels

A request becomes one statement and a list of the user sets that no table served.  The request is
checked before any table is looked up; after that nothing can fail.
-/

namespace Funnel

/-- Why a request cannot be compiled. -/
inductive CompileError
  | config (fault : ConfigFault)
  | request (fault : RequestFault)
  /-- There is no day after the last day of the request. -/
  | endOutOfRange (endDate : Date)
deriving DecidableEq

structure Compiled where
  sql : String
  unresolved : Unresolved
deriving DecidableEq

/-- The result of a compilation, and what was read of the listings for it. -/
structure Compilation where
  result : Except CompileError Compiled
  listings : Listings

/-- The period of a request that can be compiled. -/
def Request.check (config : Config) (r : Request) : Except CompileError Period :=
  match config.fault? with
  | some fault => .error (.config fault)
  | none =>
    match r.fault? config with
    | some fault => .error (.request fault)
    | none =>
      match Period.ofDays? r.startDate r.endDate with
      | some period => .ok period
      | none => .error (.endOutOfRange r.endDate)

/-- The user sets that a request needs tables for, in the order in which they are looked up. -/
def Request.wanted (r : Request) : List UserSet := r.steps.flatMap (Step.wanted r.dimension)

/-- The table of a user set among those that were looked up. -/
def tableAmong (tables : List (UserSet × Option DailyTable)) (set : UserSet) : Option DailyTable :=
  (tables.lookup set).join

/-- The plans of all steps, given the table of each user set. -/
def Setting.plans (s : Setting) (find : UserSet → Option DailyTable) (steps : List Step) :
    List StepPlan :=
  steps.map (s.plan find)

def Setting.compiled (s : Setting) (find : UserSet → Option DailyTable) (steps : List Step) :
    Compiled :=
  let plans := s.plans find steps
  ⟨s.statementSql (plans.map StepPlan.body), .ofList (plans.flatMap StepPlan.missing)⟩

def compile (config : Config) (registry : Registry) (r : Request) : Compilation :=
  match r.check config with
  | .error e => ⟨.error e, .unread⟩
  | .ok period =>
    let (tables, listings) :=
      (Listings.findAll registry r.project config.connectorField r.wanted).run .unread
    ⟨.ok (Setting.compiled ⟨config, period, r.dimension⟩ (tableAmong tables) r.steps), listings⟩

end Funnel
