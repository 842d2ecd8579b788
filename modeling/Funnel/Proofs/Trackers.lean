import Funnel.Proofs.Unresolved
import Mathlib

/-!
# Trackers of Unresolved Sets

Several trackers of unresolved sets, which are written to, moved into each other and cleared in any
order (`TrackerAction`).  A set that was recorded travels from tracker to tracker as they are moved
(`TrackerAction.carry`) until one of them is cleared.  A tracker lists the sets that have arrived in
it, each once and in the order of names (`listing_run`), so that only the arrivals matter and not
the actions that brought them there.
-/

namespace Funnel

/-! ## The order of a listing -/

theorem Text.precedes_iff_lt {s t : List Char} : Precedes s t ↔ s < t := by
  induction s generalizing t with
  | nil =>
    cases t with
    | nil => simp [Precedes]
    | cons d ds => simp [Precedes]
  | cons c cs ih =>
    cases t with
    | nil => simp [Precedes]
    | cons d ds =>
      have hchar : c.toNat < d.toNat ↔ c < d := Iff.rfl
      rw [List.cons_lt_cons_iff, Precedes, ih, Char.toNat_inj, hchar]

namespace UserSet

/-- The place of a breakdown in a listing: none comes before any name. -/
def rank : Option String → WithBot String
  | none => ⊥
  | some x => x

/-- What sets are listed by: the collection, and then the breakdown.  Names are ordered by the code
points of their characters. -/
def key (set : UserSet) : String ×ₗ WithBot String := toLex (set.collection, rank set.breakdown)

theorem breakdownPrecedes_iff_rank_lt {x y : Option String} :
    BreakdownPrecedes x y ↔ rank x < rank y := by
  cases x with
  | none =>
    cases y with
    | none => exact iff_of_false id (lt_irrefl ⊥)
    | some y => exact iff_of_true trivial (WithBot.bot_lt_coe y)
  | some x =>
    cases y with
    | none => exact iff_of_false id not_lt_bot
    | some y =>
      calc BreakdownPrecedes (some x) (some y)
          ↔ x.toList < y.toList := Text.precedes_iff_lt
        _ ↔ x < y := String.lt_iff_toList_lt.symm
        _ ↔ rank (some x) < rank (some y) := WithBot.coe_lt_coe.symm

theorem precedes_iff_key_lt {a b : UserSet} : a.Precedes b ↔ a.key < b.key := by
  unfold Precedes key
  rw [Text.precedes_iff_lt, ← String.lt_iff_toList_lt, breakdownPrecedes_iff_rank_lt,
    Prod.Lex.toLex_lt_toLex]

end UserSet

namespace Unresolved

theorem sortedLT_keys (u : Unresolved) : (u.sets.map UserSet.key).SortedLT := by
  rw [List.sortedLT_iff_pairwise, List.pairwise_map]
  exact u.sorted.imp fun h ↦ UserSet.precedes_iff_key_lt.1 h

theorem nodup_sets (u : Unresolved) : u.sets.Nodup :=
  u.sortedLT_keys.nodup.of_map

theorem size_eq_ncard (u : Unresolved) : u.size = {set | set ∈ u}.ncard := by
  have hcoe : {set | set ∈ u} = (u.sets.toFinset : Set UserSet) := by
    ext set
    simp [mem_def]
  rw [hcoe, Set.ncard_coe_finset, List.toFinset_card_of_nodup u.nodup_sets]
  rfl

end Unresolved

/-! ## Actions on trackers -/

/-- What can be done to trackers that go by names in `ι`. -/
inductive TrackerAction (ι : Type)
  | record (tracker : ι) (set : UserSet)
  /-- All that is in the source is moved out of it. -/
  | merge (target source : ι)
  | clear (tracker : ι)

/-- What each tracker holds. -/
abbrev Trackers (ι : Type) := ι → Unresolved

variable {ι : Type} [DecidableEq ι]

namespace TrackerAction

/-- What an action makes of the trackers. -/
def act (s : Trackers ι) : TrackerAction ι → Trackers ι
  | record tracker set => Function.update s tracker ((s tracker).insert set)
  | merge target source =>
    let emptied := Function.update s source .empty
    Function.update emptied target ((emptied target).union (s source))
  | clear tracker => Function.update s tracker .empty

/-- Where the sets of a tracker are after an action; they are nowhere after they were cleared. -/
def carry (tracker : ι) : TrackerAction ι → Option ι
  | record _ _ => some tracker
  | merge target source => some (if tracker = source then target else tracker)
  | clear cleared => if tracker = cleared then none else some tracker

/-- A tracker holds after an action what the action records in it and what is carried to it. -/
theorem mem_act {s : Trackers ι} {action : TrackerAction ι} {tracker : ι} {set : UserSet} :
    set ∈ action.act s tracker ↔
      action = record tracker set ∨
        ∃ origin, set ∈ s origin ∧ carry origin action = some tracker := by
  cases action with
  | record written recorded =>
    by_cases h : tracker = written
    · subst h
      simp [act, carry, eq_comm]
    · simp [act, carry, h, Ne.symm h]
  | merge target source =>
    simp only [act, carry, reduceCtorEq, false_or, Option.some.injEq]
    by_cases h : tracker = target
    · subst h
      rw [Function.update_self, Unresolved.mem_union]
      by_cases hself : tracker = source
      · subst hself
        simp only [Function.update_self, Unresolved.not_mem_empty, or_false]
        constructor
        · exact fun hset ↦ ⟨tracker, hset, if_pos rfl⟩
        · rintro ⟨origin, hset, horigin⟩
          split_ifs at horigin with hsource
          · exact hsource ▸ hset
          · exact horigin ▸ hset
      · rw [Function.update_of_ne hself]
        constructor
        · rintro (hset | hset)
          · exact ⟨source, hset, if_pos rfl⟩
          · exact ⟨tracker, hset, if_neg hself⟩
        · rintro ⟨origin, hset, horigin⟩
          split_ifs at horigin with hsource
          · exact .inl (hsource ▸ hset)
          · exact .inr (horigin ▸ hset)
    · rw [Function.update_of_ne h]
      by_cases hsource : tracker = source
      · subst hsource
        simp only [Function.update_self, Unresolved.not_mem_empty, false_iff, not_exists, not_and]
        intro origin _ horigin
        split_ifs at horigin with hsource
        · exact h horigin.symm
        · exact hsource horigin
      · rw [Function.update_of_ne hsource]
        constructor
        · exact fun hset ↦ ⟨tracker, hset, if_neg hsource⟩
        · rintro ⟨origin, hset, horigin⟩
          split_ifs at horigin with horiginSource
          · exact absurd horigin.symm h
          · exact horigin ▸ hset
  | clear cleared =>
    simp only [act, carry, reduceCtorEq, false_or]
    by_cases h : tracker = cleared
    · subst h
      simp
    · rw [Function.update_of_ne h]
      constructor
      · exact fun hset ↦ ⟨tracker, hset, if_neg h⟩
      · rintro ⟨origin, hset, horigin⟩
        split_ifs at horigin
        exact Option.some.inj horigin ▸ hset

end TrackerAction

/-! ## Runs -/

namespace Trackers

open TrackerAction

/-- The trackers after some actions; at first they are empty. -/
def run (actions : List (TrackerAction ι)) : Trackers ι := actions.foldl act fun _ ↦ .empty

/-- A set is recorded at some time, in some tracker, and what that tracker holds then is carried by
the later actions to this one. -/
def Arrives (actions : List (TrackerAction ι)) (tracker : ι) (set : UserSet) : Prop :=
  ∃ before origin after, actions = before ++ record origin set :: after ∧
    after.foldlM carry origin = some tracker

theorem run_append_singleton (actions : List (TrackerAction ι)) (action : TrackerAction ι) :
    run (actions ++ [action]) = action.act (run actions) := by
  rw [run, List.foldl_append]
  rfl

/-- One more action brings a set to a tracker by recording it there, or by carrying it from where it
was before. -/
theorem arrives_append_singleton {actions : List (TrackerAction ι)} {action : TrackerAction ι}
    {tracker : ι} {set : UserSet} :
    Arrives (actions ++ [action]) tracker set ↔ action = record tracker set ∨
      ∃ origin, Arrives actions origin set ∧ carry origin action = some tracker := by
  constructor
  · rintro ⟨before, first, after, hactions, hcarry⟩
    rcases List.eq_nil_or_concat after with rfl | ⟨after, last, rfl⟩
    · obtain ⟨-, haction⟩ := List.append_inj' hactions rfl
      obtain rfl : first = tracker := Option.some.inj hcarry
      exact .inl (List.singleton_inj.1 haction)
    · rw [List.concat_eq_append, ← List.cons_append, ← List.append_assoc] at hactions
      obtain ⟨rfl, haction⟩ := List.append_inj' hactions rfl
      obtain rfl := List.singleton_inj.1 haction
      rw [List.concat_eq_append, List.foldlM_append, Option.bind_eq_bind,
        Option.bind_eq_some_iff] at hcarry
      obtain ⟨origin, horigin, hlast⟩ := hcarry
      have hstep : carry origin action = some tracker := by simpa using hlast
      exact .inr ⟨origin, ⟨before, first, after, rfl, horigin⟩, hstep⟩
  · rintro (rfl | ⟨origin, ⟨before, first, after, rfl, horigin⟩, hlast⟩)
    · exact ⟨actions, tracker, [], rfl, rfl⟩
    · refine ⟨before, first, after ++ [action], by simp, ?_⟩
      rw [List.foldlM_append, horigin]
      simpa using hlast

/-- A tracker holds the sets that have arrived in it. -/
theorem mem_run {actions : List (TrackerAction ι)} {tracker : ι} {set : UserSet} :
    set ∈ run actions tracker ↔ Arrives actions tracker set := by
  induction actions using List.reverseRecOn generalizing tracker with
  | nil =>
    have hnone : ¬ Arrives [] tracker set := by
      rintro ⟨before, first, after, hactions, -⟩
      simp at hactions
    simp [run, hnone]
  | append_singleton actions action ih =>
    rw [run_append_singleton, mem_act, arrives_append_singleton]
    simp only [ih]

/-- After any actions a tracker lists the sets that have arrived in it, in their order and each
once; its size is their number.  Two trackers, after the same actions or after others, have the same
listing exactly if the same sets have arrived in them. -/
theorem listing_run (actions : List (TrackerAction ι)) (tracker : ι) :
    let u := run actions tracker
    (u.sets.map UserSet.key).SortedLT ∧ u.sets.Nodup ∧
      (∀ set, set ∈ u.sets ↔ Arrives actions tracker set) ∧
      u.size = {set | Arrives actions tracker set}.ncard ∧
      ∀ (actions' : List (TrackerAction ι)) (tracker' : ι),
        u.sets = (run actions' tracker').sets ↔
          ∀ set, Arrives actions tracker set ↔ Arrives actions' tracker' set := by
  intro u
  have hmem (set : UserSet) : set ∈ u ↔ Arrives actions tracker set := mem_run
  refine ⟨u.sortedLT_keys, u.nodup_sets, hmem, ?_, fun actions' tracker' ↦ ?_⟩
  · rw [u.size_eq_ncard]
    simp only [hmem]
  · constructor
    · intro h set
      rw [← hmem, ← mem_run, Unresolved.mem_def, Unresolved.mem_def, h]
    · intro h
      have heq : u = run actions' tracker' := by
        apply Unresolved.ext
        intro set
        rw [hmem, h, mem_run]
      rw [heq]

/-- What is recorded before a move is found in the target, and what is recorded behind it is cleared
with the source. -/
example :
    let actions : List (TrackerAction Nat) := [.record 0 ⟨"visit", some "region"⟩,
      .record 1 ⟨"visit", none⟩, .merge 1 0, .record 0 ⟨"buy", none⟩,
      .record 1 ⟨"visit", some "region"⟩, .clear 0]
    (run actions 1).sets = [⟨"visit", none⟩, ⟨"visit", some "region"⟩] ∧
      (run actions 0).sets = [] := by
  decide

end Trackers

end Funnel
