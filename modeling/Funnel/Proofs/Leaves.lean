import Funnel.Proofs.Rewriting
import Mathlib.Data.List.Basic

/-!
# The Leaves of a Filter

The column references of a filter stand at its leaves, from left to right (`leaves`).  Other
references can be put in their places (`withLeaves`): these are the leaves of the new filter
(`leaves_withLeaves`), and nothing else has changed, because the references of the old filter, put
at the leaves again, give it back (`withLeaves_withLeaves`, `withLeaves_leaves`).
-/

namespace Funnel.Filter

open Sql (BinaryOp LogicalOp)

/-! ## Leaves -/

mutual

/-- The column references at the leaves, from left to right. -/
def leaves : Filter → List ColumnRef
  | column ref => [ref]
  | value _ => []
  | unary _ e => e.leaves
  | binary _ left right => left.leaves ++ right.leaves
  | logical _ left right => left.leaves ++ right.leaves
  | isNull e _ => e.leaves
  | inList e items _ => e.leaves ++ leavesAll items
  | between e low high _ => e.leaves ++ (low.leaves ++ high.leaves)
  | like e pattern _ _ => e.leaves ++ pattern.leaves
  | cast e _ => e.leaves
  | call _ args => leavesAll args
  | unsupported _ => []

def leavesAll : List Filter → List ColumnRef
  | [] => []
  | e :: es => e.leaves ++ leavesAll es

end

mutual

/-- The filter with other references at its leaves, the first of them at the leftmost leaf. -/
def withLeaves : List ColumnRef → Filter → Filter
  | refs, column ref => column (refs.headD ref)
  | _, value v => value v
  | refs, unary op e => unary op (e.withLeaves refs)
  | refs, binary op left right =>
    binary op (left.withLeaves (refs.take left.leaves.length))
      (right.withLeaves (refs.drop left.leaves.length))
  | refs, logical op left right =>
    logical op (left.withLeaves (refs.take left.leaves.length))
      (right.withLeaves (refs.drop left.leaves.length))
  | refs, isNull e negated => isNull (e.withLeaves refs) negated
  | refs, inList e items negated =>
    inList (e.withLeaves (refs.take e.leaves.length))
      (withLeavesAll (refs.drop e.leaves.length) items) negated
  | refs, between e low high negated =>
    between (e.withLeaves (refs.take e.leaves.length))
      (low.withLeaves ((refs.drop e.leaves.length).take low.leaves.length))
      (high.withLeaves ((refs.drop e.leaves.length).drop low.leaves.length)) negated
  | refs, like e pattern negated ignoreCase =>
    like (e.withLeaves (refs.take e.leaves.length))
      (pattern.withLeaves (refs.drop e.leaves.length)) negated ignoreCase
  | refs, cast e type => cast (e.withLeaves refs) type
  | refs, call name args => call name (withLeavesAll refs args)
  | _, unsupported e => unsupported e

def withLeavesAll : List ColumnRef → List Filter → List Filter
  | _, [] => []
  | refs, e :: es =>
    e.withLeaves (refs.take e.leaves.length) :: withLeavesAll (refs.drop e.leaves.length) es

end

/-- References do not change how tightly a filter holds together. -/
@[simp]
theorem strength_withLeaves (refs : List ColumnRef) (f : Filter) :
    (f.withLeaves refs).strength = f.strength := by
  cases f with
  | unary op e => exact strength_unary_congr op _ e
  | logical op left right => exact strength_logical_congr op _ _ left right
  | _ => rfl

mutual

/-- A supported filter refers to the columns at its leaves. -/
theorem references_eq (f : Filter) (h : f.supported = true) :
    f.references = f.leaves.map ColumnRef.name := by
  cases f with
  | column ref => rfl
  | value v => rfl
  | unary op e => exact references_eq e h
  | binary op left right =>
    rw [supported, Bool.and_eq_true] at h
    rw [references, leaves, List.map_append, references_eq left h.1, references_eq right h.2]
  | logical op left right =>
    rw [supported, Bool.and_eq_true] at h
    rw [references, leaves, List.map_append, references_eq left h.1, references_eq right h.2]
  | isNull e negated => exact references_eq e h
  | inList e items negated =>
    rw [supported, Bool.and_eq_true] at h
    rw [references, leaves, List.map_append, references_eq e h.1, referencesAll_eq items h.2]
  | between e low high negated =>
    rw [supported, Bool.and_eq_true, Bool.and_eq_true] at h
    rw [references, leaves, List.map_append, List.map_append, references_eq e h.1.1,
      references_eq low h.1.2, references_eq high h.2, List.append_assoc]
  | like e pattern negated ignoreCase =>
    rw [supported, Bool.and_eq_true] at h
    rw [references, leaves, List.map_append, references_eq e h.1, references_eq pattern h.2]
  | cast e type => exact references_eq e h
  | call name args => exact referencesAll_eq args h
  | unsupported e => cases h

theorem referencesAll_eq (fs : List Filter) (h : supportedAll fs = true) :
    referencesAll fs = (leavesAll fs).map ColumnRef.name := by
  cases fs with
  | nil => rfl
  | cons f fs =>
    rw [supportedAll, Bool.and_eq_true] at h
    rw [referencesAll, leavesAll, List.map_append, references_eq f h.1, referencesAll_eq fs h.2]

end

/-! ## References put at the leaves

A row of references for a filter with several parts is the row for the first part, then the row
for the next one. -/

section Append

variable {as bs cs : List ColumnRef}

theorem withLeaves_binary {left : Filter} (h : as.length = left.leaves.length) (op : BinaryOp)
    (right : Filter) : (binary op left right).withLeaves (as ++ bs) =
      binary op (left.withLeaves as) (right.withLeaves bs) := by
  rw [withLeaves, List.take_left' h, List.drop_left' h]

theorem withLeaves_logical {left : Filter} (h : as.length = left.leaves.length) (op : LogicalOp)
    (right : Filter) : (logical op left right).withLeaves (as ++ bs) =
      logical op (left.withLeaves as) (right.withLeaves bs) := by
  rw [withLeaves, List.take_left' h, List.drop_left' h]

theorem withLeaves_inList {e : Filter} (h : as.length = e.leaves.length) (items : List Filter)
    (negated : Bool) : (inList e items negated).withLeaves (as ++ bs) =
      inList (e.withLeaves as) (withLeavesAll bs items) negated := by
  rw [withLeaves, List.take_left' h, List.drop_left' h]

theorem withLeaves_between {e low : Filter} (h : as.length = e.leaves.length)
    (hlow : bs.length = low.leaves.length) (high : Filter) (negated : Bool) :
    (between e low high negated).withLeaves (as ++ (bs ++ cs)) =
      between (e.withLeaves as) (low.withLeaves bs) (high.withLeaves cs) negated := by
  rw [withLeaves, List.take_left' h, List.drop_left' h, List.take_left' hlow,
    List.drop_left' hlow]

theorem withLeaves_like {e : Filter} (h : as.length = e.leaves.length) (pattern : Filter)
    (negated ignoreCase : Bool) : (like e pattern negated ignoreCase).withLeaves (as ++ bs) =
      like (e.withLeaves as) (pattern.withLeaves bs) negated ignoreCase := by
  rw [withLeaves, List.take_left' h, List.drop_left' h]

theorem withLeavesAll_cons {f : Filter} (h : as.length = f.leaves.length) (fs : List Filter) :
    withLeavesAll (as ++ bs) (f :: fs) = f.withLeaves as :: withLeavesAll bs fs := by
  rw [withLeavesAll, List.take_left' h, List.drop_left' h]

end Append

/-- A row for two parts of a filter, split between them. -/
theorem exists_append_of_length {refs : List ColumnRef} {m n : Nat} (h : refs.length = m + n) :
    ∃ as bs, refs = as ++ bs ∧ as.length = m ∧ bs.length = n := by
  refine ⟨refs.take m, refs.drop m, (List.take_append_drop m refs).symm, ?_, ?_⟩
  · rw [List.length_take]
    omega
  · rw [List.length_drop]
    omega

mutual

/-- The leaves are the references that were put there. -/
theorem leaves_withLeaves (f : Filter) {refs : List ColumnRef}
    (h : refs.length = f.leaves.length) : (f.withLeaves refs).leaves = refs := by
  cases f with
  | column ref =>
    obtain ⟨ref', rfl⟩ := List.length_eq_one_iff.1 h
    rfl
  | value v => exact (List.length_eq_zero_iff.1 h).symm
  | unary op e => exact leaves_withLeaves e h
  | binary op left right =>
    obtain ⟨as, bs, rfl, has, hbs⟩ := exists_append_of_length (h.trans List.length_append)
    rw [withLeaves_binary has, leaves, leaves_withLeaves left has, leaves_withLeaves right hbs]
  | logical op left right =>
    obtain ⟨as, bs, rfl, has, hbs⟩ := exists_append_of_length (h.trans List.length_append)
    rw [withLeaves_logical has, leaves, leaves_withLeaves left has, leaves_withLeaves right hbs]
  | isNull e negated => exact leaves_withLeaves e h
  | inList e items negated =>
    obtain ⟨as, bs, rfl, has, hbs⟩ := exists_append_of_length (h.trans List.length_append)
    rw [withLeaves_inList has, leaves, leaves_withLeaves e has, leavesAll_withLeavesAll items hbs]
  | between e low high negated =>
    obtain ⟨as, rest, rfl, has, hrest⟩ := exists_append_of_length (h.trans List.length_append)
    obtain ⟨bs, cs, rfl, hbs, hcs⟩ := exists_append_of_length (hrest.trans List.length_append)
    rw [withLeaves_between has hbs, leaves, leaves_withLeaves e has, leaves_withLeaves low hbs,
      leaves_withLeaves high hcs]
  | like e pattern negated ignoreCase =>
    obtain ⟨as, bs, rfl, has, hbs⟩ := exists_append_of_length (h.trans List.length_append)
    rw [withLeaves_like has, leaves, leaves_withLeaves e has, leaves_withLeaves pattern hbs]
  | cast e type => exact leaves_withLeaves e h
  | call name args => exact leavesAll_withLeavesAll args h
  | unsupported e => exact (List.length_eq_zero_iff.1 h).symm

theorem leavesAll_withLeavesAll (fs : List Filter) {refs : List ColumnRef}
    (h : refs.length = (leavesAll fs).length) : leavesAll (withLeavesAll refs fs) = refs := by
  cases fs with
  | nil => exact (List.length_eq_zero_iff.1 h).symm
  | cons f fs =>
    obtain ⟨as, bs, rfl, has, hbs⟩ := exists_append_of_length (h.trans List.length_append)
    rw [withLeavesAll_cons has, leavesAll, leaves_withLeaves f has, leavesAll_withLeavesAll fs hbs]

end

mutual

/-- A filter with its own references at its leaves is the filter. -/
theorem withLeaves_leaves (f : Filter) : f.withLeaves f.leaves = f := by
  cases f with
  | column ref => rfl
  | value v => rfl
  | unary op e => rw [leaves, withLeaves, withLeaves_leaves e]
  | binary op left right =>
    rw [leaves, withLeaves_binary rfl, withLeaves_leaves left, withLeaves_leaves right]
  | logical op left right =>
    rw [leaves, withLeaves_logical rfl, withLeaves_leaves left, withLeaves_leaves right]
  | isNull e negated => rw [leaves, withLeaves, withLeaves_leaves e]
  | inList e items negated =>
    rw [leaves, withLeaves_inList rfl, withLeaves_leaves e, withLeavesAll_leavesAll items]
  | between e low high negated =>
    rw [leaves, withLeaves_between rfl rfl, withLeaves_leaves e, withLeaves_leaves low,
      withLeaves_leaves high]
  | like e pattern negated ignoreCase =>
    rw [leaves, withLeaves_like rfl, withLeaves_leaves e, withLeaves_leaves pattern]
  | cast e type => rw [leaves, withLeaves, withLeaves_leaves e]
  | call name args => rw [leaves, withLeaves, withLeavesAll_leavesAll args]
  | unsupported e => rfl

theorem withLeavesAll_leavesAll (fs : List Filter) : withLeavesAll (leavesAll fs) fs = fs := by
  cases fs with
  | nil => rfl
  | cons f fs =>
    rw [leavesAll, withLeavesAll_cons rfl, withLeaves_leaves f, withLeavesAll_leavesAll fs]

end

/-- A filter keeps the number of its leaves. -/
theorem length_leaves_withLeaves (f : Filter) {refs refs' : List ColumnRef}
    (h : refs.length = f.leaves.length) (h' : refs'.length = f.leaves.length) :
    refs'.length = (f.withLeaves refs).leaves.length := by
  rw [leaves_withLeaves f h, h, h']

mutual

/-- References put at the leaves twice are the ones that were put there last. -/
theorem withLeaves_withLeaves (f : Filter) {refs refs' : List ColumnRef}
    (h : refs.length = f.leaves.length) (h' : refs'.length = f.leaves.length) :
    (f.withLeaves refs).withLeaves refs' = f.withLeaves refs' := by
  cases f with
  | column ref =>
    obtain ⟨ref', rfl⟩ := List.length_eq_one_iff.1 h'
    rfl
  | value v => rfl
  | unary op e => rw [withLeaves, withLeaves, withLeaves, withLeaves_withLeaves e h h']
  | binary op left right =>
    obtain ⟨as, bs, rfl, has, hbs⟩ := exists_append_of_length (h.trans List.length_append)
    obtain ⟨as', bs', rfl, has', hbs'⟩ := exists_append_of_length (h'.trans List.length_append)
    rw [withLeaves_binary has, withLeaves_binary (length_leaves_withLeaves left has has'),
      withLeaves_binary has', withLeaves_withLeaves left has has',
      withLeaves_withLeaves right hbs hbs']
  | logical op left right =>
    obtain ⟨as, bs, rfl, has, hbs⟩ := exists_append_of_length (h.trans List.length_append)
    obtain ⟨as', bs', rfl, has', hbs'⟩ := exists_append_of_length (h'.trans List.length_append)
    rw [withLeaves_logical has, withLeaves_logical (length_leaves_withLeaves left has has'),
      withLeaves_logical has', withLeaves_withLeaves left has has',
      withLeaves_withLeaves right hbs hbs']
  | isNull e negated => rw [withLeaves, withLeaves, withLeaves, withLeaves_withLeaves e h h']
  | inList e items negated =>
    obtain ⟨as, bs, rfl, has, hbs⟩ := exists_append_of_length (h.trans List.length_append)
    obtain ⟨as', bs', rfl, has', hbs'⟩ := exists_append_of_length (h'.trans List.length_append)
    rw [withLeaves_inList has, withLeaves_inList (length_leaves_withLeaves e has has'),
      withLeaves_inList has', withLeaves_withLeaves e has has',
      withLeavesAll_withLeavesAll items hbs hbs']
  | between e low high negated =>
    obtain ⟨as, rest, rfl, has, hrest⟩ := exists_append_of_length (h.trans List.length_append)
    obtain ⟨bs, cs, rfl, hbs, hcs⟩ := exists_append_of_length (hrest.trans List.length_append)
    obtain ⟨as', rest', rfl, has', hrest'⟩ :=
      exists_append_of_length (h'.trans List.length_append)
    obtain ⟨bs', cs', rfl, hbs', hcs'⟩ :=
      exists_append_of_length (hrest'.trans List.length_append)
    rw [withLeaves_between has hbs, withLeaves_between (length_leaves_withLeaves e has has')
      (length_leaves_withLeaves low hbs hbs'), withLeaves_between has' hbs',
      withLeaves_withLeaves e has has', withLeaves_withLeaves low hbs hbs',
      withLeaves_withLeaves high hcs hcs']
  | like e pattern negated ignoreCase =>
    obtain ⟨as, bs, rfl, has, hbs⟩ := exists_append_of_length (h.trans List.length_append)
    obtain ⟨as', bs', rfl, has', hbs'⟩ := exists_append_of_length (h'.trans List.length_append)
    rw [withLeaves_like has, withLeaves_like (length_leaves_withLeaves e has has'),
      withLeaves_like has', withLeaves_withLeaves e has has',
      withLeaves_withLeaves pattern hbs hbs']
  | cast e type => rw [withLeaves, withLeaves, withLeaves, withLeaves_withLeaves e h h']
  | call name args =>
    rw [withLeaves, withLeaves, withLeaves, withLeavesAll_withLeavesAll args h h']
  | unsupported e => rfl

theorem withLeavesAll_withLeavesAll (fs : List Filter) {refs refs' : List ColumnRef}
    (h : refs.length = (leavesAll fs).length) (h' : refs'.length = (leavesAll fs).length) :
    withLeavesAll refs' (withLeavesAll refs fs) = withLeavesAll refs' fs := by
  cases fs with
  | nil => rfl
  | cons f fs =>
    obtain ⟨as, bs, rfl, has, hbs⟩ := exists_append_of_length (h.trans List.length_append)
    obtain ⟨as', bs', rfl, has', hbs'⟩ := exists_append_of_length (h'.trans List.length_append)
    rw [withLeavesAll_cons has, withLeavesAll_cons (length_leaves_withLeaves f has has'),
      withLeavesAll_cons has', withLeaves_withLeaves f has has',
      withLeavesAll_withLeavesAll fs hbs hbs']

end

end Funnel.Filter
