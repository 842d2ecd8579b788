import Funnel.Proofs.Independence
import Funnel.Proofs.Lookups
import Mathlib

/-!
# Requests That Are Refused

What can be wrong with a configuration and a request is a statement on both
(`CompileError.Applies`), and errors are looked for in a fixed order (`CompileError.inOrder`).  A
compilation fails exactly if some error applies, and reports the first one in this order
(`compile_reports_first_error`).  Neither the registry nor a filter can make it fail: a registry is
not asked before the request is accepted, and no answer of it is an error.
-/

namespace Funnel

/-! ## The last day -/

theorem monthLength_pos (year : Int) (month : Nat) : 0 < monthLength year month := by
  unfold monthLength
  split
  · split <;> decide
  all_goals decide

theorem Date.ofParts?_eq_none_iff {year : Int} {month day : Nat} :
    ofParts? year month day = none ↔ ¬ IsDay year month day := by
  simp [ofParts?]

/-- Only the last day of the calendar has no day after it. -/
theorem Date.next?_eq_none_iff {d : Date} : d.next? = none ↔ ∀ later, ¬ d < later := by
  obtain ⟨year, month, day, hday⟩ := d
  have hpos := monthLength_pos year (month + 1)
  have hnext : next? ⟨year, month, day, hday⟩ = none ↔
      ¬ IsDay year month (day + 1) ∧ ¬ IsDay year (month + 1) 1 ∧ ¬ IsDay (year + 1) 1 1 := by
    simp only [next?, Option.orElse_eq_none, ofParts?_eq_none_iff]
  rw [hnext]
  constructor
  · rintro ⟨hsameMonth, hsameYear, hyear⟩ ⟨year', month', day', hday'⟩ hlt
    rw [lt_def] at hlt
    have hlength : year' = year → month' = month → day' ≤ monthLength year month := by
      rintro rfl rfl
      exact hday'.2.2.2.2.2
    have hpos' := monthLength_pos (year + 1) 1
    unfold IsDay at hday hday' hsameMonth hsameYear hyear
    dsimp only at hlt
    omega
  · intro hlast
    refine ⟨fun h ↦ hlast ⟨_, _, _, h⟩ ?_, fun h ↦ hlast ⟨_, _, _, h⟩ ?_,
      fun h ↦ hlast ⟨_, _, _, h⟩ ?_⟩
    all_goals
      rw [lt_def]
      dsimp only
      omega

/-! ## Errors -/

namespace CompileError

/-- What an error says of a configuration and a request. -/
def Applies (config : Config) (r : Request) : CompileError → Prop
  | .config (.blankColumn field) =>
    ∃ name, (field, name) ∈ config.columnFields ∧ Text.allBlank name = true
  | .config .noBuckets => config.topBuckets = 0
  | .request .noSteps => r.steps = []
  | .request .dimensionIsConnector => r.dimension = some config.connectorField
  | .request .blankDimension => ∃ d, r.dimension = some d ∧ Text.allBlank d = true
  | .request (.dimensionIsResult d) => r.dimension = some d ∧
    ∃ column ∈ Request.resultColumns, Text.sameIgnoringCase d column = true
  | .request (.reversedDates first last) => first = r.startDate ∧ last = r.endDate ∧ last < first
  | .request (.blankCollection n) =>
    ∃ i step, n = i + 1 ∧ r.steps[i]? = some step ∧ Text.allBlank step.collection = true
  | .endOutOfRange last => last = r.endDate ∧ ∀ later, ¬ last < later

/-- The errors that a configuration may have, in the order in which they are looked for. -/
def ofConfig (config : Config) : List CompileError :=
  config.columnFields.map (fun (field, _) ↦ .config (.blankColumn field)) ++ [.config .noBuckets]

/-- The errors that a request may have besides its last day, in the order in which they are looked
for. -/
def ofRequest (r : Request) : List CompileError :=
  .request .noSteps ::
    r.dimension.toList.flatMap (fun d ↦ [.request .dimensionIsConnector, .request .blankDimension,
      .request (.dimensionIsResult d)]) ++
    .request (.reversedDates r.startDate r.endDate) ::
      (List.range r.steps.length).map fun i ↦ .request (.blankCollection (i + 1))

/-- Everything that can be wrong, in the order in which it is looked for. -/
def inOrder (config : Config) (r : Request) : List CompileError :=
  ofConfig config ++ ofRequest r ++ [.endOutOfRange r.endDate]

section First

variable {config : Config} {r : Request}

open Classical in
/-- The first of some errors that applies. -/
noncomputable def first? (config : Config) (r : Request) (errors : List CompileError) :
    Option CompileError :=
  errors.find? fun e ↦ decide (e.Applies config r)

theorem first?_append (errors errors' : List CompileError) :
    first? config r (errors ++ errors') =
      (first? config r errors).or (first? config r errors') :=
  List.find?_append

theorem first?_nil : first? config r [] = none := rfl

open Classical in
theorem first?_cons (e : CompileError) (errors : List CompileError) :
    first? config r (e :: errors) =
      if e.Applies config r then some e else first? config r errors := by
  by_cases h : e.Applies config r <;> simp [first?, h]

theorem first?_eq_some_iff {errors : List CompileError} {e : CompileError} :
    first? config r errors = some e ↔ e.Applies config r ∧ ∃ before after,
      errors = before ++ e :: after ∧ ∀ other ∈ before, ¬ other.Applies config r := by
  simp [first?, List.find?_eq_some_iff_append]

theorem first?_eq_none_iff {errors : List CompileError} :
    first? config r errors = none ↔ ∀ e ∈ errors, ¬ e.Applies config r := by
  simp [first?, List.find?_eq_none]

/-- Whatever applies is looked for. -/
theorem mem_inOrder_of_applies {e : CompileError} (h : e.Applies config r) :
    e ∈ inOrder config r := by
  rw [inOrder, List.mem_append, List.mem_append]
  cases e with
  | config fault =>
    refine .inl (.inl ?_)
    cases fault with
    | blankColumn field =>
      obtain ⟨name, hname, -⟩ := h
      exact List.mem_append_left _ (List.mem_map.2 ⟨(field, name), hname, rfl⟩)
    | noBuckets => simp [ofConfig]
  | request fault =>
    refine .inl (.inr ?_)
    cases fault with
    | noSteps => simp [ofRequest]
    | dimensionIsConnector =>
      have hdimension : r.dimension = some config.connectorField := h
      simp [ofRequest, hdimension]
    | blankDimension =>
      obtain ⟨d, hdimension, -⟩ := h
      simp [ofRequest, hdimension]
    | dimensionIsResult d =>
      obtain ⟨hdimension, -⟩ := h
      simp [ofRequest, hdimension]
    | reversedDates first last =>
      obtain ⟨rfl, rfl, -⟩ := h
      simp [ofRequest]
    | blankCollection n =>
      obtain ⟨i, step, rfl, hstep, -⟩ := h
      obtain ⟨hi, -⟩ := List.getElem?_eq_some_iff.1 hstep
      simp [ofRequest, hi]
  | endOutOfRange last =>
    obtain ⟨rfl, -⟩ := h
    exact .inr (List.mem_singleton.2 rfl)

/-- The faults of a configuration are found in their order. -/
theorem first?_ofConfig : first? config r (ofConfig config) = config.fault?.map .config := by
  have hconnector : Applies config r (.config (.blankColumn "connector_field")) ↔
      Text.allBlank config.connectorField = true := by
    simp [Applies, Config.columnFields]
  have htime : Applies config r (.config (.blankColumn "time_column")) ↔
      Text.allBlank config.timeColumn = true := by
    simp [Applies, Config.columnFields]
  have hdate : Applies config r (.config (.blankColumn "date_column")) ↔
      Text.allBlank config.dateColumn = true := by
    simp [Applies, Config.columnFields]
  have hbuckets : Applies config r (.config .noBuckets) ↔ config.topBuckets = 0 := Iff.rfl
  simp only [ofConfig, Config.columnFields, List.map_cons, List.map_nil, List.cons_append,
    List.nil_append, first?_cons, first?_nil, hconnector, htime, hdate, hbuckets, Config.fault?,
    List.find?_cons, List.find?_nil]
  cases Text.allBlank config.connectorField <;> cases Text.allBlank config.timeColumn <;>
    cases Text.allBlank config.dateColumn <;> by_cases h : config.topBuckets = 0 <;> simp [h]

/-- The faults of a dimension are found in their order. -/
theorem first?_ofDimension :
    first? config r (r.dimension.toList.flatMap fun d ↦ [.request .dimensionIsConnector,
      .request .blankDimension, .request (.dimensionIsResult d)]) =
    (r.dimension.bind (Request.dimensionFault? config)).map .request := by
  cases hdimension : r.dimension with
  | none => rfl
  | some d =>
    simp only [Option.toList_some, List.flatMap_cons, List.flatMap_nil, List.append_nil,
      first?_cons, first?_nil, Applies, hdimension, Option.some.injEq, Option.bind_some,
      Request.dimensionFault?, List.any_eq_true, exists_eq_left', true_and]
    split_ifs <;> rfl

/-- The first step whose collection has no name is found. -/
theorem first?_ofSteps :
    first? config r ((List.range r.steps.length).map fun i ↦
      .request (.blankCollection (i + 1))) =
    (Request.collectionFault? r.steps).map .request := by
  classical
  have happlies (i : Nat) : Applies config r (.request (.blankCollection (i + 1))) ↔
      ∃ h : i < r.steps.length, Text.allBlank r.steps[i].collection = true := by
    simp [Applies, List.getElem?_eq_some_iff]
  have hfind : (List.range r.steps.length).find? (fun i ↦
        decide (Applies config r (.request (.blankCollection (i + 1))))) =
      r.steps.findIdx? fun step ↦ Text.allBlank step.collection := by
    ext i
    simp only [List.find?_range_eq_some, List.findIdx?_eq_some_iff_getElem, happlies,
      List.mem_range, decide_eq_true_eq, Bool.not_eq_true', decide_eq_false_iff_not, not_exists]
    constructor
    · rintro ⟨⟨hi, hblank⟩, -, hbefore⟩
      exact ⟨hi, hblank, fun j hj ↦ hbefore j hj (by omega)⟩
    · rintro ⟨hi, hblank, hbefore⟩
      exact ⟨⟨hi, hblank⟩, hi, fun j hj _ ↦ hbefore j hj⟩
  rw [Request.collectionFault?, Option.map_map, ← hfind, first?, List.find?_map]
  congr

theorem first?_ofRequest : first? config r (ofRequest r) = (r.fault? config).map .request := by
  unfold ofRequest Request.fault?
  rw [List.cons_append, first?_cons, first?_append, first?_ofDimension, first?_cons, first?_ofSteps]
  generalize r.dimension.bind (Request.dimensionFault? config) = dimensionFault
  by_cases hsteps : r.steps = []
  · simp [Applies, hsteps]
  · by_cases hdates : r.endDate < r.startDate <;> cases dimensionFault <;>
      simp [Applies, hsteps, hdates]

theorem applies_endOutOfRange_iff :
    Applies config r (.endOutOfRange r.endDate) ↔ Period.ofDays? r.startDate r.endDate = none := by
  rw [Period.ofDays?, Option.map_eq_none_iff, Date.next?_eq_none_iff]
  exact and_iff_right rfl

/-- A check reports the first error that applies. -/
theorem check_eq_error_iff {e : CompileError} :
    r.check config = .error e ↔ first? config r (inOrder config r) = some e := by
  rw [inOrder, first?_append, first?_append, first?_ofConfig, first?_ofRequest, first?_cons,
    first?_nil, Request.check]
  cases config.fault? with
  | some fault => simp
  | none =>
    cases r.fault? config with
    | some fault => simp
    | none =>
      cases hperiod : Period.ofDays? r.startDate r.endDate with
      | none => simp [applies_endOutOfRange_iff, hperiod]
      | some period => simp [applies_endOutOfRange_iff, hperiod]

end First

end CompileError

/-! ## Filters -/

/-- The request with other filters for its steps. -/
def Request.withFilters (r : Request) (filters : Nat → Option Filter) : Request :=
  { r with steps := r.steps.mapIdx fun i step ↦ ⟨step.collection, filters i⟩ }

/-- A check does not look at filters. -/
theorem Request.check_withFilters (config : Config) (r : Request) (filters : Nat → Option Filter) :
    (r.withFilters filters).check config = r.check config := by
  have hempty : (r.withFilters filters).steps.isEmpty = r.steps.isEmpty := by
    cases hsteps : r.steps <;> simp [withFilters, hsteps]
  have hcollections :
      collectionFault? (r.withFilters filters).steps = collectionFault? r.steps := by
    unfold collectionFault?
    congr 1
    ext i
    simp [withFilters, List.findIdx?_eq_some_iff_getElem]
  unfold check fault?
  rw [hempty, hcollections]
  rfl

/-! ## Compilations -/

/-- A compilation fails as the check of its request does. -/
theorem compile_eq_error_iff {config : Config} {registry : Registry} {r : Request}
    {e : CompileError} :
    (compile config registry r).result = .error e ↔ r.check config = .error e := by
  rw [compile_result]
  cases r.check config <;> simp [Except.map]

/-- A compilation fails exactly if some error applies, and then with the first one that does.  The
failure is the same at every registry and with all other filters.  Nothing is asked for by a request
that is refused, and each listing at most once by one that is accepted. -/
theorem compile_reports_first_error (config : Config) (registry : Registry) (r : Request) :
    let result := (compile config registry r).result
    let listings := (compile config registry r).listings
    (∀ e, result = .error e ↔ e.Applies config r ∧ ∃ before after,
      CompileError.inOrder config r = before ++ e :: after ∧
        ∀ other ∈ before, ¬ other.Applies config r) ∧
    ((∃ e, result = .error e) ↔ ∃ e : CompileError, e.Applies config r) ∧
    (∀ (registry' : Registry) (filters : Nat → Option Filter) (e : CompileError),
      (compile config registry' (r.withFilters filters)).result = .error e ↔ result = .error e) ∧
    (∀ e, result = .error e →
      listings.continuous.requests = 0 ∧ listings.materialized.requests = 0) ∧
    listings.continuous.requests ≤ 1 ∧ listings.materialized.requests ≤ 1 := by
  intro result listings
  have herror (e : CompileError) : result = .error e ↔
      CompileError.first? config r (CompileError.inOrder config r) = some e :=
    compile_eq_error_iff.trans CompileError.check_eq_error_iff
  have hlistings := compile_listings config registry r
  refine ⟨fun e ↦ ?_, ?_, fun registry' filters e ↦ ?_, fun e h ↦ ?_, ?_⟩
  · rw [herror, CompileError.first?_eq_some_iff]
  · simp only [herror, ← Option.isSome_iff_exists]
    constructor
    · intro h
      obtain ⟨e, he⟩ := Option.isSome_iff_exists.1 h
      exact ⟨e, (CompileError.first?_eq_some_iff.1 he).1⟩
    · rintro ⟨e, he⟩
      rw [Option.isSome_iff_ne_none]
      intro hnone
      exact CompileError.first?_eq_none_iff.1 hnone e (CompileError.mem_inOrder_of_applies he) he
  · rw [compile_eq_error_iff, compile_eq_error_iff, Request.check_withFilters]
  · rw [compile_eq_error_iff] at h
    rw [h] at hlistings
    rw [show listings = .unread from hlistings]
    exact ⟨rfl, rfl⟩
  · rw [show listings = _ from hlistings]
    cases r.check config with
    | error e => exact ⟨Nat.zero_le _, Nat.zero_le _⟩
    | ok period =>
      simp only [Listings.once, Listing.requests_once]
      split_ifs <;> simp

/-- The dimension, the days and the second step are at fault, and the dimension comes first. -/
theorem compile_reports_result_column :
    let registry : Registry := .withFailing (.ofCatalog .empty) fun _ ↦ true
    let r : Request := ⟨"shop", [⟨"visit", none⟩, ⟨" ", none⟩], some "User_Count",
      ⟨2024, 2, 29, by decide⟩, ⟨2024, 2, 1, by decide⟩⟩
    let compilation := compile .default registry r
    compilation.result = .error (.request (.dimensionIsResult "User_Count")) ∧
      CompileError.Applies .default r (.request (.reversedDates r.startDate r.endDate)) ∧
      CompileError.Applies .default r (.request (.blankCollection 2)) ∧
      compilation.listings.continuous.requests = 0 ∧
      compilation.listings.materialized.requests = 0 := by
  intro registry r compilation
  obtain ⟨hfirst, -, -, hunread, -⟩ := compile_reports_first_error .default registry r
  have hbefore : ∀ other ∈ CompileError.ofConfig .default ++ [.request .noSteps,
      .request .dimensionIsConnector, .request .blankDimension],
      ¬ CompileError.Applies .default r other := by
    have hnames : ∀ entry ∈ Config.columnFields .default, Text.allBlank entry.2 = false := by decide
    intro other hother happlies
    simp only [CompileError.ofConfig, List.mem_append, List.mem_map, List.mem_cons,
      List.not_mem_nil, or_false] at hother
    obtain (⟨entry, -, rfl⟩ | rfl) | rfl | rfl | rfl := hother
    · obtain ⟨name, hname, hblank⟩ := happlies
      simp [hnames _ hname] at hblank
    · cases happlies
    · cases happlies
    · exact absurd (Option.some.inj happlies) (by decide)
    · obtain ⟨d, hd, hblank⟩ := happlies
      obtain rfl := Option.some.inj hd
      cases hblank
  have herror := (hfirst (.request (.dimensionIsResult "User_Count"))).2
    ⟨⟨rfl, "user_count", by decide, by decide +kernel⟩, _, _, rfl, hbefore⟩
  exact ⟨herror, ⟨rfl, rfl, by decide⟩, ⟨1, _, rfl, rfl, by decide⟩, hunread _ herror⟩

end Funnel
