import Funnel.Proofs.Tables
import Mathlib

/-!
# What Look-Ups Ask a Registry For

A run of look-ups starts with nothing known of the listings of a project.  The first look-up asks
for the continuous listing, and the first one that does not find its table there asks for the
materialized listing.  Nothing is asked twice, also not after a failure, so the listings after a run
are known from two bits (`Listings.once`), and every look-up sees first answers alone
(`findAll_reads_first_answers`).
-/

namespace Funnel

/-! ## Listings that are asked for once -/

/-- A listing that was asked for once, or never. -/
def Listing.once (source : Nat → Option (List String)) (asked : Bool) : Listing :=
  if asked then ⟨some ((source 0).getD []), 1⟩ else .unread

theorem Listing.read_once (source : Nat → Option (List String)) (asked : Bool) :
    Listing.read source (.once source asked) = ((source 0).getD [], .once source true) := by
  cases asked <;> rfl

theorem Listing.requests_once (source : Nat → Option (List String)) (asked : Bool) :
    (Listing.once source asked).requests = if asked then 1 else 0 := by
  cases asked <;> rfl

/-- Among the continuous tables, as they were first listed, there is none for this set. -/
def Registry.Skips (registry : Registry) (project connector : String) (set : UserSet) : Bool :=
  decide (set.tableName connector ∉ registry.listed project .continuous)

namespace Listings

variable (registry : Registry) (project : String)

/-- The listings of a project, each of which was asked for once or never. -/
def once (continuous materialized : Bool) : Listings where
  continuous := .once (registry.answer .continuous project) continuous
  materialized := .once (registry.answer .materialized project) materialized

variable {registry project}

theorem unread_eq_once : unread = once registry project false false := rfl

/-- What is known of the listings depends on the first answers only. -/
theorem once_congr {registry' : Registry}
    (h : registry'.listed project = registry.listed project) :
    once registry' project = once registry project := by
  have hcontinuous := congrFun h .continuous
  have hmaterialized := congrFun h .materialized
  unfold Registry.listed at hcontinuous hmaterialized
  funext c m
  simp only [once, Listing.once, hcontinuous, hmaterialized]

/-- A look-up asks for the continuous listing, and for the materialized one if it has to go on. -/
theorem find_once (connector : String) (set : UserSet) (c m : Bool) :
    find registry project (set.tableName connector) (once registry project c m) =
      (registry.table project connector set,
        once registry project true (m || registry.Skips project connector set)) := by
  have hcontinuous : tables registry project .continuous (once registry project c m) =
      (registry.listed project .continuous, once registry project true m) := by
    simp only [tables, once, Listing.read_once, Registry.listed]
  have hmaterialized : tables registry project .materialized (once registry project true m) =
      (registry.listed project .materialized, once registry project true true) := by
    simp only [tables, once, Listing.read_once, Registry.listed]
  by_cases hmem : set.tableName connector ∈ registry.listed project .continuous
  · simp [find, bind, StateT.bind, hcontinuous, Registry.table, Registry.Skips, hmem, pure,
      StateT.pure]
  · simp [find, bind, StateT.bind, hcontinuous, hmaterialized, Registry.table, Registry.Skips, hmem,
      pure, StateT.pure]

/-- A run of look-ups asks for the continuous listing if there is anything to look up, and for the
materialized one if some look-up has to go on. -/
theorem findAll_once (connector : String) (sets : List UserSet) (c m : Bool) :
    findAll registry project connector sets (once registry project c m) =
      (sets.map fun set ↦ (set, registry.table project connector set),
        once registry project (c || !sets.isEmpty)
          (m || sets.any (registry.Skips project connector))) := by
  induction sets generalizing c m with
  | nil => simp [findAll, pure, StateT.pure]
  | cons set sets ih =>
    simp [findAll, bind, StateT.bind, find_once, ih, pure, StateT.pure, Bool.or_assoc]

end Listings

/-! ## Compilations -/

/-- A request that is refused asks for nothing.  What an accepted one asks for depends on the sets
that it looks up. -/
theorem compile_listings (config : Config) (registry : Registry) (r : Request) :
    (compile config registry r).listings =
      match r.check config with
      | .error _ => .unread
      | .ok _ => .once registry r.project (!r.wanted.isEmpty)
        (r.wanted.any (registry.Skips r.project config.connectorField)) := by
  unfold compile
  cases r.check config with
  | error e => rfl
  | ok period =>
    have hrun := @Listings.findAll_once registry r.project config.connectorField r.wanted
      false false
    rw [← Listings.unread_eq_once] at hrun
    simp only [StateT.run, hrun, Bool.false_or]

/-! ## Runs of look-ups -/

/-- Whatever was looked up before, the answer to a look-up is the table that its set has in the
first answers of the registry.  Then the continuous listing was asked for once; the materialized one
was asked for once if some table looked up so far is not in the continuous listing, and never
otherwise.
Registries with the same first answers cannot be told apart, and a failure is an answer without
tables. -/
theorem Listings.findAll_reads_first_answers (registry : Registry) (project connector : String)
    (earlier : List UserSet) (set : UserSet) :
    let run (registry : Registry) (sets : List UserSet) :=
      findAll registry project connector sets .unread
    let known := (run registry (earlier ++ [set])).2
    (run registry (earlier ++ [set])).1 =
      (run registry earlier).1 ++ [(set, registry.table project connector set)] ∧
    known.continuous.requests = 1 ∧
    known.materialized.requests =
      (if ∃ other ∈ earlier ++ [set],
        other.tableName connector ∉ registry.listed project .continuous then 1 else 0) ∧
    ∀ registry' : Registry, registry'.listed project = registry.listed project →
      run registry' (earlier ++ [set]) = run registry (earlier ++ [set]) := by
  intro run known
  have hrun (registry : Registry) (sets : List UserSet) :
      run registry sets = (sets.map fun set ↦ (set, registry.table project connector set),
        once registry project (!sets.isEmpty) (sets.any (registry.Skips project connector))) :=
    findAll_once connector sets false false
  refine ⟨?_, ?_, ?_, fun registry' h ↦ ?_⟩
  · simp [hrun]
  · simp [known, hrun, once, Listing.requests_once]
  · simp only [known, hrun, once, Listing.requests_once, List.any_eq_true, Registry.Skips,
      decide_eq_true_eq]
  · have hskips : registry'.Skips project connector = registry.Skips project connector := by
      funext other
      simp only [Registry.Skips, h]
    have htable : registry'.table project connector = registry.table project connector := by
      funext other
      simp only [Registry.table, h]
    rw [hrun, hrun, once_congr h, hskips, htable]

/-- The last of four look-ups, at a registry that cannot give the continuous listing a second time
nor the materialized one the first time. -/
theorem Listings.four_lookups_read_first_answers :
    let registry : Registry := ⟨fun schema _ k ↦ match schema, k with
      | .continuous, 0 => some ["_users_daily_visit"]
      | .continuous, _ => none
      | .materialized, 0 => none
      | .materialized, _ => some ["_users_daily_buy"]⟩
    let steady : Registry := .ofCatalog ⟨[("shop", ⟨["_users_daily_visit"], []⟩)]⟩
    let visit : UserSet := ⟨"visit", none⟩
    let buy : UserSet := ⟨"buy", none⟩
    let run := findAll registry "shop" "_user" [visit, buy, visit, buy] .unread
    let visits : DailyTable := ⟨.continuous, "_users_daily_visit"⟩
    run.1 = [(visit, some visits), (buy, none), (visit, some visits), (buy, none)] ∧
    run.2.continuous.requests = 1 ∧ run.2.materialized.requests = 1 ∧
    findAll steady "shop" "_user" [visit, buy, visit, buy] .unread = run := by
  intro registry steady visit buy run visits
  have hlisted : steady.listed "shop" = registry.listed "shop" := by
    funext schema
    cases schema <;> rfl
  obtain ⟨-, hcontinuous, hmaterialized, hsame⟩ :=
    findAll_reads_first_answers registry "shop" "_user" [visit, buy, visit] buy
  refine ⟨by decide +kernel, hcontinuous, ?_, hsame steady hlisted⟩
  rw [if_pos ⟨buy, by simp, by decide +kernel⟩] at hmaterialized
  exact hmaterialized

end Funnel
