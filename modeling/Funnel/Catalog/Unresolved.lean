import Funnel.Catalog.UserSet

/-!
# Unresolved user sets

The user sets that no table could serve.  They are listed in order and without repetitions, however
they were put in.
-/

namespace Funnel

structure Unresolved where
  sets : List UserSet
  sorted : sets.Pairwise UserSet.Precedes
deriving DecidableEq

/-- Puts a set into its place in an ordered list, unless it is there. -/
def insertSorted (set : UserSet) : List UserSet → List UserSet
  | [] => [set]
  | other :: rest =>
    if set.Precedes other then set :: other :: rest
    else if set = other then other :: rest
    else other :: insertSorted set rest

theorem mem_insertSorted {set other : UserSet} {sets : List UserSet} :
    other ∈ insertSorted set sets ↔ other = set ∨ other ∈ sets := by
  induction sets with
  | nil => simp [insertSorted]
  | cons head rest ih =>
    rw [insertSorted]
    split
    · simp
    · split
      · next h => subst h; simp
      · simp [ih, or_left_comm]

theorem insertSorted_pairwise {set : UserSet} {sets : List UserSet}
    (h : sets.Pairwise UserSet.Precedes) : (insertSorted set sets).Pairwise UserSet.Precedes := by
  induction sets with
  | nil => simp [insertSorted]
  | cons head rest ih =>
    rw [List.pairwise_cons] at h
    rw [insertSorted]
    split
    · next hlt =>
      refine List.pairwise_cons.2 ⟨fun x hx ↦ ?_, List.pairwise_cons.2 h⟩
      rcases List.mem_cons.1 hx with rfl | hx
      · exact hlt
      · exact hlt.trans (h.1 x hx)
    · split
      · exact List.pairwise_cons.2 h
      · next hlt hne =>
        refine List.pairwise_cons.2 ⟨fun x hx ↦ ?_, ih h.2⟩
        rcases mem_insertSorted.1 hx with rfl | hx
        · rcases UserSet.precedes_trichotomy x head with h | h | h
          · exact absurd h hlt
          · exact absurd h hne
          · exact h
        · exact h.1 x hx

namespace Unresolved

def empty : Unresolved := ⟨[], .nil⟩

def insert (u : Unresolved) (set : UserSet) : Unresolved :=
  ⟨insertSorted set u.sets, insertSorted_pairwise u.sorted⟩

def insertAll (u : Unresolved) (sets : List UserSet) : Unresolved := sets.foldl insert u

/-- Everything that is in one of the two. -/
def union (u v : Unresolved) : Unresolved := u.insertAll v.sets

def ofList (sets : List UserSet) : Unresolved := empty.insertAll sets

def size (u : Unresolved) : Nat := u.sets.length

def isEmpty (u : Unresolved) : Bool := u.sets.isEmpty

instance : Membership UserSet Unresolved where
  mem u set := set ∈ u.sets

theorem mem_def {u : Unresolved} {set : UserSet} : set ∈ u ↔ set ∈ u.sets := Iff.rfl

@[simp] theorem not_mem_empty (set : UserSet) : set ∉ empty := List.not_mem_nil

@[simp] theorem mem_insert {u : Unresolved} {set other : UserSet} :
    other ∈ u.insert set ↔ other = set ∨ other ∈ u := mem_insertSorted

@[simp] theorem mem_insertAll {u : Unresolved} {sets : List UserSet} {other : UserSet} :
    other ∈ u.insertAll sets ↔ other ∈ sets ∨ other ∈ u := by
  induction sets generalizing u with
  | nil => simp [insertAll]
  | cons head rest ih =>
    have h := ih (u := u.insert head)
    rw [insertAll, List.foldl_cons, ← insertAll, h, mem_insert, List.mem_cons, or_assoc,
      or_left_comm]

@[simp] theorem mem_union {u v : Unresolved} {set : UserSet} :
    set ∈ u.union v ↔ set ∈ v ∨ set ∈ u := mem_insertAll

@[simp] theorem mem_ofList {sets : List UserSet} {set : UserSet} :
    set ∈ ofList sets ↔ set ∈ sets := by
  simp [ofList]

end Unresolved

end Funnel
