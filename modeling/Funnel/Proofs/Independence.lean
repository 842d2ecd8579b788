import Funnel.Proofs.Conditions
import Mathlib

/-!
# Steps Apart from Each Other

A compilation looks up the tables of all its steps in one pair of remembered listings.  That is
planning the steps one after the other, each with what the steps before it have left of the listings
(`compile_eq_planInTurn`).  What is left never changes a plan: a step is served in the same way in
every request of the project, the dimension and the days, wherever it stands and whatever stands
beside it (`plans_stand_alone`).  Only its name, its link to the step before and its label tell its
position.
-/

namespace Funnel

/-! ## Planning in turn -/

namespace Listings

variable {registry : Registry} {project : String}

theorem findAll_append (connector : String) (sets sets' : List UserSet) :
    findAll registry project connector (sets ++ sets') = do
      let tables ← findAll registry project connector sets
      let tables' ← findAll registry project connector sets'
      return tables ++ tables' := by
  induction sets with
  | nil => simp [findAll]
  | cons set sets ih => simp [findAll, ih]

end Listings

namespace Setting

variable (s : Setting)

/-- Plans the steps one after the other.  A step looks up the tables that it wants when it is
planned. -/
def planInTurn (registry : Registry) (project : String) :
    List Step → StateM Listings (List StepPlan)
  | [] => return []
  | step :: steps => do
    let tables ←
      Listings.findAll registry project s.config.connectorField (step.wanted s.dimension)
    let plans ← planInTurn registry project steps
    return s.plan (tableAmong tables) step :: plans

variable {s} {registry : Registry} {project : String}

/-- From listings that hold first answers, each step gets the plan of the tables in these answers.
The listings are left as by looking up all that the steps want at once. -/
theorem planInTurn_of_settled (steps : List Step) {l : Listings}
    (hl : l.Settled registry project) :
    ∃ l', l'.Settled registry project ∧
      s.planInTurn registry project steps l =
        (steps.map (s.plan (registry.table project s.config.connectorField)), l') ∧
      Listings.findAll registry project s.config.connectorField
          (steps.flatMap (Step.wanted s.dimension)) l =
        ((steps.flatMap (Step.wanted s.dimension)).map fun set ↦
          (set, registry.table project s.config.connectorField set), l') := by
  induction steps generalizing l with
  | nil => exact ⟨l, hl, rfl, rfl⟩
  | cons step steps ih =>
    obtain ⟨l₁, hl₁, hfind⟩ :=
      Listings.findAll_of_settled s.config.connectorField (step.wanted s.dimension) hl
    obtain ⟨l₂, hl₂, hplans, hrest⟩ := ih hl₁
    refine ⟨l₂, hl₂, ?_, ?_⟩
    · simp [planInTurn, bind, StateT.bind, hfind, hplans, pure, StateT.pure,
        plan_tableAmong fun _ hset ↦ hset]
    · rw [List.flatMap_cons, Listings.findAll_append]
      simp [bind, StateT.bind, hfind, hrest, pure, StateT.pure]

theorem plans_of_settled (steps : List Step) {l : Listings} (hl : l.Settled registry project) :
    (s.planInTurn registry project steps l).1 =
      steps.map (s.plan (registry.table project s.config.connectorField)) := by
  obtain ⟨l', -, hplans, -⟩ := planInTurn_of_settled steps hl
  rw [hplans]

theorem settled_planInTurn (steps : List Step) {l : Listings} (hl : l.Settled registry project) :
    (s.planInTurn registry project steps l).2.Settled registry project := by
  obtain ⟨l', hl', hplans, -⟩ := planInTurn_of_settled steps hl
  rw [hplans]
  exact hl'

/-! ## Position -/

variable (s)

/-- The link of the step at a position to the step before. -/
def joinSql : Nat → String
  | 0 => ""
  | previous + 1 => s.linkSql (.toPrevious s.dimension.isSome previous)

/-- The text of a step around the text of its body: all that its position adds. -/
def framed (i : Nat) (body : String) : String :=
  stepName i ++ " AS (SELECT " ++ stepName i ++ ".* FROM (" ++ body ++ ") " ++ stepName i ++
    s.joinSql i ++ ")"

/-- What is compiled from plans: their bodies in frames, counts by position, and what they miss. -/
def assembled (plans : List StepPlan) : Compiled where
  sql := "WITH " ++ ",\n".intercalate (plans.mapIdx fun i p ↦ s.framed i p.body.sql) ++ "\n" ++
    s.resultSql ("\nUNION ALL\n".intercalate ((List.range plans.length).map s.countSql))
  unresolved := .ofList (plans.flatMap StepPlan.missing)

variable {s}

theorem stepSql_stepQuery (i : Nat) (body : Body) :
    s.stepSql (s.stepQuery i body) = s.framed i body.sql := by
  cases i <;> rfl

theorem statementSql_eq_assembled (plans : List StepPlan) :
    s.statementSql (plans.map StepPlan.body) = (s.assembled plans).sql := by
  have hsteps : ((plans.map StepPlan.body).mapIdx s.stepQuery).map s.stepSql =
      plans.mapIdx fun i p ↦ s.framed i p.body.sql := by
    apply List.ext_getElem?
    intro i
    simp [List.getElem?_mapIdx, Option.map_map, Function.comp_def, stepSql_stepQuery]
  rw [statementSql, hsteps, List.length_map, assembled]

theorem compiled_eq_assembled (find : UserSet → Option DailyTable) (steps : List Step) :
    s.compiled find steps = s.assembled (steps.map (s.plan find)) := by
  rw [compiled, plans, statementSql_eq_assembled]
  rfl

end Setting

/-- A compilation checks the request, plans its steps in turn from nothing known of the listings,
and puts the plans together. -/
theorem compile_eq_planInTurn (config : Config) (registry : Registry) (r : Request) :
    compile config registry r =
      match r.check config with
      | .error e => ⟨.error e, .unread⟩
      | .ok period =>
        let s : Setting := ⟨config, period, r.dimension⟩
        let run := s.planInTurn registry r.project r.steps .unread
        ⟨.ok (s.assembled run.1), run.2⟩ := by
  unfold compile
  cases hcheck : r.check config with
  | error e => rfl
  | ok period =>
    have hunread : Listings.Settled registry r.project .unread := Listings.settled_unread
    obtain ⟨l, -, hplans, hfind⟩ :=
      Setting.planInTurn_of_settled (s := ⟨config, period, r.dimension⟩) r.steps hunread
    have hwanted : r.wanted = r.steps.flatMap (Step.wanted r.dimension) := rfl
    simp only [hplans, StateT.run, hwanted, hfind, Setting.compiled_eq_assembled]
    rw [List.map_congr_left fun step hstep ↦ Setting.plan_tableAmong fun set hset ↦
      List.mem_flatMap.2 ⟨step, hstep, hset⟩]

/-! ## Other steps -/

namespace Request

variable {config : Config} {r : Request}

theorem collectionFault?_eq_none_iff {steps : List Step} :
    collectionFault? steps = none ↔ ∀ step ∈ steps, Text.allBlank step.collection = false := by
  simp [collectionFault?, List.findIdx?_eq_none_iff]

theorem fault?_eq_none_iff :
    r.fault? config = none ↔ r.steps ≠ [] ∧ r.dimension.bind (dimensionFault? config) = none ∧
      ¬ r.endDate < r.startDate ∧
      ∀ step ∈ r.steps, Text.allBlank step.collection = false := by
  unfold fault?
  cases hsteps : r.steps with
  | nil => simp
  | cons step steps =>
    rw [← collectionFault?_eq_none_iff]
    by_cases hdates : r.endDate < r.startDate <;> simp [hdates]

/-- Some of the steps of an accepted request make an accepted request. -/
theorem check_of_subset {period : Period} (h : r.check config = .ok period) {steps : List Step}
    (hne : steps ≠ []) (hsubset : ∀ step ∈ steps, step ∈ r.steps) :
    check config { r with steps := steps } = .ok period := by
  rw [check_eq_ok_iff, fault?_eq_none_iff] at h ⊢
  obtain ⟨hconfig, ⟨-, hdimension, hdates, hcollections⟩, hperiod⟩ := h
  have hnames : ∀ step ∈ steps, Text.allBlank step.collection = false :=
    fun step hstep ↦ hcollections step (hsubset step hstep)
  exact ⟨hconfig, ⟨hne, hdimension, hdates, hnames⟩, hperiod⟩

end Request

/-- The period of a request does not depend on its steps. -/
theorem Request.period_unique {config : Config} {r : Request} {steps : List Step}
    {period period' : Period} (h : r.check config = .ok period)
    (h' : Request.check config { r with steps := steps } = .ok period') : period' = period := by
  have hdays := Request.ofDays?_of_check h
  have hdays' := Request.ofDays?_of_check h'
  exact Option.some.inj (hdays'.symm.trans hdays)

theorem compile_eq_ok_iff_assembled {config : Config} {registry : Registry} {r : Request}
    {c : Compiled} :
    (compile config registry r).result = .ok c ↔ ∃ period, r.check config = .ok period ∧
      let s : Setting := ⟨config, period, r.dimension⟩
      s.assembled (s.planInTurn registry r.project r.steps .unread).1 = c := by
  rw [compile_eq_planInTurn]
  cases r.check config with
  | error e => simp
  | ok period => simp

/-- The body of a step, and what it misses, are those of the request with this step alone.  They
are the same whatever steps were planned before, and wherever the step stands in any other request
for the same project, dimension and days. -/
theorem plans_stand_alone {config : Config} {registry : Registry} {r : Request} {c : Compiled}
    (h : (compile config registry r).result = .ok c) :
    ∃ period, r.check config = .ok period ∧
      let s : Setting := ⟨config, period, r.dimension⟩
      let plans (steps : List Step) (l : Listings) : List StepPlan :=
        (s.planInTurn registry r.project steps l).1
      let left (steps : List Step) : Listings :=
        (s.planInTurn registry r.project steps .unread).2
      c = s.assembled (plans r.steps .unread) ∧
      ∀ (i : Nat) (step : Step), r.steps[i]? = some step → ∃ p,
        (plans r.steps .unread)[i]? = some p ∧
        (compile config registry { r with steps := [step] }).result = .ok (s.assembled [p]) ∧
        (∀ before, plans [step] (left before) = [p]) ∧
        ∀ (others : List Step) (c' : Compiled),
          (compile config registry { r with steps := others }).result = .ok c' →
          c' = s.assembled (plans others .unread) ∧
          ∀ j : Nat, others[j]? = some step → (plans others .unread)[j]? = some p := by
  obtain ⟨period, hcheck, rfl⟩ := compile_eq_ok_iff_assembled.1 h
  refine ⟨period, hcheck, ?_⟩
  intro s plans left
  have hunread : Listings.Settled registry r.project .unread := Listings.settled_unread
  have hplans (steps : List Step) : plans steps .unread =
      steps.map (s.plan (registry.table r.project config.connectorField)) :=
    Setting.plans_of_settled steps hunread
  refine ⟨rfl, fun i step hstep ↦ ⟨s.plan (registry.table r.project config.connectorField) step,
    ?_, ?_, ?_, ?_⟩⟩
  · rw [hplans, List.getElem?_map, hstep, Option.map_some]
  · have halone := Request.check_of_subset hcheck (List.cons_ne_nil step [])
      fun x hx ↦ List.mem_singleton.1 hx ▸ List.mem_of_getElem? hstep
    exact compile_eq_ok_iff_assembled.2 ⟨period, halone, congrArg s.assembled (hplans [step])⟩
  · exact fun before ↦ Setting.plans_of_settled [step] (Setting.settled_planInTurn before hunread)
  · intro others c' hc'
    obtain ⟨period', hcheck', rfl⟩ := compile_eq_ok_iff_assembled.1 hc'
    obtain rfl := Request.period_unique hcheck hcheck'
    refine ⟨rfl, fun j hj ↦ ?_⟩
    rw [hplans, List.getElem?_map, hj, Option.map_some]

/-- A step between two others, for a registry that fails to list the continuous tables, and the same
step in front of one of them. -/
theorem plan_of_step_in_front :
    let registry : Registry := .withFailing (.ofCatalog ⟨[("shop",
      ⟨["_users_daily_buy_by_region"], ["_users_daily_buy_by_plan"]⟩)]⟩) (· = .continuous)
    let visit : Step := ⟨"visit", none⟩
    let buy : Step :=
      ⟨"buy", some (.binary .eq (.column (.plain "plan")) (.value (.string "pro")))⟩
    let r : Request := ⟨"shop", [visit, buy, visit], some "region", ⟨2024, 2, 1, by decide⟩,
      ⟨2024, 2, 29, by decide⟩⟩
    ∃ c c' period p, (compile .default registry r).result = .ok c ∧
      (compile .default registry { r with steps := [buy, visit] }).result = .ok c' ∧
      let s : Setting := ⟨.default, period, some "region"⟩
      let plans (steps : List Step) : List StepPlan :=
        (s.planInTurn registry "shop" steps .unread).1
      c = s.assembled (plans [visit, buy, visit]) ∧ c' = s.assembled (plans [buy, visit]) ∧
      (plans [visit, buy, visit])[1]? = some p ∧ (plans [buy, visit])[0]? = some p ∧
      (compile .default registry { r with steps := [buy] }).result = .ok (s.assembled [p]) := by
  intro registry visit buy r
  have hcheck : Request.check .default r =
      .ok ⟨⟨2024, 2, 1, by decide⟩, ⟨2024, 3, 1, by decide⟩⟩ := by decide
  have hcheck' : Request.check .default { r with steps := [buy, visit] } =
      .ok ⟨⟨2024, 2, 1, by decide⟩, ⟨2024, 3, 1, by decide⟩⟩ := by decide
  have hc := compile_of_check registry hcheck
  have hc' := compile_of_check registry hcheck'
  obtain ⟨period, -, hassembled, hsteps⟩ := plans_stand_alone hc
  obtain ⟨p, hp, halone, -, hothers⟩ := hsteps 1 buy rfl
  obtain ⟨hassembled', hplan⟩ := hothers [buy, visit] _ hc'
  exact ⟨_, _, period, p, hc, hc', hassembled, hassembled', hp, hplan 0 rfl, halone⟩

end Funnel
