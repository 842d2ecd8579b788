import Mathlib
import Funnel.Filter.Render

/-!
# Chains of Conjunctions and Disjunctions

`Filter.SameChains` relates two filters that differ in the association of AND chains and of OR
chains only, which is to say that they agree once all chains are associated to the left
(`sameChains_iff`).  The weight of a filter is the same for both of them, but it changes when a
comparison or a concatenation takes other operands: each leaf is counted twice for every one of
these around it.
-/

namespace Funnel

open Sql (UnaryOp BinaryOp LogicalOp)

namespace Filter

/-! ## Association -/

/-- The filters are the same up to the association of AND chains and of OR chains. -/
inductive SameChains : Filter → Filter → Prop
  | refl (t : Filter) : SameChains t t
  | symm {t t' : Filter} (h : SameChains t t') : SameChains t' t
  | trans {t t' t'' : Filter} (h : SameChains t t') (h' : SameChains t' t'') : SameChains t t''
  | assoc (op : LogicalOp) (a b c : Filter) :
    SameChains (logical op (logical op a b) c) (logical op a (logical op b c))
  | unary (op : UnaryOp) {e e' : Filter} (h : SameChains e e') :
    SameChains (unary op e) (unary op e')
  | binary (op : BinaryOp) {l l' r r' : Filter} (hl : SameChains l l') (hr : SameChains r r') :
    SameChains (binary op l r) (binary op l' r')
  | logical (op : LogicalOp) {l l' r r' : Filter} (hl : SameChains l l') (hr : SameChains r r') :
    SameChains (logical op l r) (logical op l' r')
  | isNull (negated : Bool) {e e' : Filter} (h : SameChains e e') :
    SameChains (isNull e negated) (isNull e' negated)
  | inList (negated : Bool) {e e' : Filter} (items : List Filter) (h : SameChains e e') :
    SameChains (inList e items negated) (inList e' items negated)
  | item (negated : Bool) (e : Filter) (front back : List Filter) {item item' : Filter}
    (h : SameChains item item') : SameChains (inList e (front ++ item :: back) negated)
      (inList e (front ++ item' :: back) negated)
  | between (negated : Bool) {e e' low low' high high' : Filter} (h : SameChains e e')
    (hl : SameChains low low') (hh : SameChains high high') :
    SameChains (between e low high negated) (between e' low' high' negated)
  | like (negated ignoreCase : Bool) {e e' pattern pattern' : Filter} (h : SameChains e e')
    (hp : SameChains pattern pattern') :
    SameChains (like e pattern negated ignoreCase) (like e' pattern' negated ignoreCase)
  | cast (type : String) {e e' : Filter} (h : SameChains e e') :
    SameChains (cast e type) (cast e' type)
  | argument (name : String) (front back : List Filter) {arg arg' : Filter}
    (h : SameChains arg arg') :
    SameChains (call name (front ++ arg :: back)) (call name (front ++ arg' :: back))

namespace SameChains

/-- Members of a list can be replaced one after the other. -/
theorem of_forall₂ (node : List Filter → Filter)
    (hnode : ∀ (front back : List Filter) {t t' : Filter}, SameChains t t' →
      SameChains (node (front ++ t :: back)) (node (front ++ t' :: back)))
    {ts ts' : List Filter} (h : List.Forall₂ SameChains ts ts') (front : List Filter) :
    SameChains (node (front ++ ts)) (node (front ++ ts')) := by
  induction h generalizing front with
  | nil => exact .refl _
  | cons hhead htail ih =>
    rename_i t t' ts ts'
    have htail := ih (front ++ [t'])
    rw [List.append_assoc, List.append_assoc] at htail
    exact (hnode front ts hhead).trans htail

theorem inLists (negated : Bool) {e e' : Filter} {items items' : List Filter}
    (h : SameChains e e') (hitems : List.Forall₂ SameChains items items') :
    SameChains (Filter.inList e items negated) (Filter.inList e' items' negated) :=
  (inList negated items h).trans <|
    of_forall₂ (Filter.inList e' · negated) (fun front back _ _ h ↦ item negated e' front back h)
      hitems []

theorem call (name : String) {args args' : List Filter} (h : List.Forall₂ SameChains args args') :
    SameChains (Filter.call name args) (Filter.call name args') :=
  of_forall₂ (Filter.call name) (fun front back _ _ h ↦ argument name front back h) h []

end SameChains

/-! ## Chains to the left -/

/-- A filter behind another one in a chain: the operators of the chain in it go to the left. -/
def chained (op : LogicalOp) (left : Filter) : Filter → Filter
  | logical inner l r =>
    if inner = op then logical op (chained op left l) r else logical op left (logical inner l r)
  | right => logical op left right

mutual

/-- The filter with every chain associated to the left. -/
def leftChains : Filter → Filter
  | column ref => column ref
  | value v => value v
  | unary op e => unary op e.leftChains
  | binary op left right => binary op left.leftChains right.leftChains
  | logical op left right => chained op left.leftChains right.leftChains
  | isNull e negated => isNull e.leftChains negated
  | inList e items negated => inList e.leftChains (leftChainsAll items) negated
  | between e low high negated => between e.leftChains low.leftChains high.leftChains negated
  | like e pattern negated ignoreCase =>
    like e.leftChains pattern.leftChains negated ignoreCase
  | cast e type => cast e.leftChains type
  | call name args => call name (leftChainsAll args)
  | unsupported e => unsupported e

def leftChainsAll : List Filter → List Filter
  | [] => []
  | e :: es => e.leftChains :: leftChainsAll es

end

/-- The filter is a chain of this operator. -/
def isChain (op : LogicalOp) : Filter → Bool
  | logical inner _ _ => inner == op
  | _ => false

mutual

/-- No chain goes on in a right operand. -/
def LeftChained : Filter → Prop
  | column _ => True
  | value _ => True
  | unary _ e => e.LeftChained
  | binary _ left right => left.LeftChained ∧ right.LeftChained
  | logical op left right =>
    right.isChain op = false ∧ left.LeftChained ∧ right.LeftChained
  | isNull e _ => e.LeftChained
  | inList e items _ => e.LeftChained ∧ LeftChainedAll items
  | between e low high _ => e.LeftChained ∧ low.LeftChained ∧ high.LeftChained
  | like e pattern _ _ => e.LeftChained ∧ pattern.LeftChained
  | cast e _ => e.LeftChained
  | call _ args => LeftChainedAll args
  | unsupported _ => True

def LeftChainedAll : List Filter → Prop
  | [] => True
  | e :: es => e.LeftChained ∧ LeftChainedAll es

end

theorem leftChainsAll_eq_map (es : List Filter) : leftChainsAll es = es.map leftChains := by
  induction es with
  | nil => rfl
  | cons e es ih => rw [leftChainsAll, ih, List.map_cons]

theorem chained_of_not_chain {op : LogicalOp} {right : Filter} (h : right.isChain op = false)
    (left : Filter) : chained op left right = logical op left right := by
  cases right with
  | logical inner l r =>
    have hne : inner ≠ op := by simpa [isChain] using h
    rw [chained, if_neg hne]
  | _ => rfl

theorem chained_logical (op : LogicalOp) (left l r : Filter) :
    chained op left (logical op l r) = logical op (chained op left l) r := by
  rw [chained, if_pos rfl]

@[simp]
theorem isChain_chained (op inner : LogicalOp) (left right : Filter) :
    (chained inner left right).isChain op = (inner == op) := by
  cases right with
  | logical inner' l r =>
    rw [chained]
    split <;> rfl
  | _ => rfl

/-- A filter stays a chain, and becomes none. -/
@[simp]
theorem isChain_leftChains (op : LogicalOp) (t : Filter) :
    t.leftChains.isChain op = t.isChain op := by
  cases t with
  | logical inner left right =>
    rw [leftChains, isChain_chained]
    rfl
  | _ => rfl

/-- A filter is one link of a chain, or a chain with one more link behind it. -/
theorem chain_induction (op : LogicalOp) {motive : Filter → Prop}
    (link : ∀ t : Filter, t.isChain op = false → motive t)
    (chain : ∀ l r, motive l → motive (logical op l r)) (t : Filter) : motive t := by
  induction t using chained.induct op with
  | case1 l r ih => exact chain l r ih
  | case2 inner l r hne => exact link _ (by simpa [isChain] using hne)
  | case3 t ht =>
    apply link
    cases t with
    | logical inner l r => exact absurd rfl (ht inner l r)
    | _ => rfl

theorem leftChained_chained {op : LogicalOp} {left right : Filter} (hl : left.LeftChained)
    (hr : right.LeftChained) : (chained op left right).LeftChained := by
  induction right using chain_induction op with
  | link right hend =>
    rw [chained_of_not_chain hend]
    exact ⟨hend, hl, hr⟩
  | chain l r ih =>
    obtain ⟨hend, hl', hr'⟩ := hr
    rw [chained_logical]
    exact ⟨hend, ih hl', hr'⟩

mutual

theorem leftChained_leftChains (t : Filter) : t.leftChains.LeftChained := by
  cases t with
  | column ref => trivial
  | value v => trivial
  | unary op e => exact leftChained_leftChains e
  | binary op left right => exact ⟨leftChained_leftChains left, leftChained_leftChains right⟩
  | logical op left right =>
    exact leftChained_chained (leftChained_leftChains left) (leftChained_leftChains right)
  | isNull e negated => exact leftChained_leftChains e
  | inList e items negated => exact ⟨leftChained_leftChains e, leftChainedAll_leftChainsAll items⟩
  | between e low high negated =>
    exact ⟨leftChained_leftChains e, leftChained_leftChains low, leftChained_leftChains high⟩
  | like e pattern negated ignoreCase =>
    exact ⟨leftChained_leftChains e, leftChained_leftChains pattern⟩
  | cast e type => exact leftChained_leftChains e
  | call name args => exact leftChainedAll_leftChainsAll args
  | unsupported e => trivial

theorem leftChainedAll_leftChainsAll (ts : List Filter) : LeftChainedAll (leftChainsAll ts) := by
  cases ts with
  | nil => trivial
  | cons t ts => exact ⟨leftChained_leftChains t, leftChainedAll_leftChainsAll ts⟩

end

theorem sameChains_chained (op : LogicalOp) (left right : Filter) :
    SameChains (logical op left right) (chained op left right) := by
  induction right using chain_induction op with
  | link right hend =>
    rw [chained_of_not_chain hend]
    exact .refl _
  | chain l r ih =>
    rw [chained_logical]
    exact (SameChains.assoc op left l r).symm.trans (.logical op ih (.refl r))

theorem chained_assoc (op : LogicalOp) (a b c : Filter) :
    chained op (chained op a b) c = chained op a (chained op b c) := by
  induction c using chain_induction op with
  | link c hend =>
    rw [chained_of_not_chain hend, chained_of_not_chain hend, chained_logical]
  | chain l r ih => rw [chained_logical, chained_logical, chained_logical, ih]

mutual

theorem sameChains_leftChains (t : Filter) : SameChains t t.leftChains := by
  cases t with
  | column ref => exact .refl _
  | value v => exact .refl _
  | unary op e => exact .unary op (sameChains_leftChains e)
  | binary op left right =>
    exact .binary op (sameChains_leftChains left) (sameChains_leftChains right)
  | logical op left right =>
    exact (SameChains.logical op (sameChains_leftChains left)
      (sameChains_leftChains right)).trans (sameChains_chained op _ _)
  | isNull e negated => exact .isNull negated (sameChains_leftChains e)
  | inList e items negated =>
    exact .inLists negated (sameChains_leftChains e) (forall₂_leftChainsAll items)
  | between e low high negated =>
    exact .between negated (sameChains_leftChains e) (sameChains_leftChains low)
      (sameChains_leftChains high)
  | like e pattern negated ignoreCase =>
    exact .like negated ignoreCase (sameChains_leftChains e) (sameChains_leftChains pattern)
  | cast e type => exact .cast type (sameChains_leftChains e)
  | call name args => exact .call name (forall₂_leftChainsAll args)
  | unsupported e => exact .refl _

theorem forall₂_leftChainsAll (ts : List Filter) :
    List.Forall₂ SameChains ts (leftChainsAll ts) := by
  cases ts with
  | nil => exact .nil
  | cons t ts => exact .cons (sameChains_leftChains t) (forall₂_leftChainsAll ts)

end

theorem SameChains.leftChains_eq {t t' : Filter} (h : SameChains t t') :
    t.leftChains = t'.leftChains := by
  induction h with
  | refl t => rfl
  | symm _ ih => exact ih.symm
  | trans _ _ ih ih' => exact ih.trans ih'
  | assoc op a b c => simp only [leftChains, chained_assoc]
  | item negated e front back _ ih =>
    simp only [leftChains, leftChainsAll_eq_map, List.map_append, List.map_cons, ih]
  | argument name front back _ ih =>
    simp only [leftChains, leftChainsAll_eq_map, List.map_append, List.map_cons, ih]
  | unary _ _ ih => simp only [leftChains, ih]
  | isNull _ _ ih => simp only [leftChains, ih]
  | inList _ _ _ ih => simp only [leftChains, ih]
  | cast _ _ ih => simp only [leftChains, ih]
  | binary _ _ _ ih ih' => simp only [leftChains, ih, ih']
  | logical _ _ _ ih ih' => simp only [leftChains, ih, ih']
  | like _ _ _ _ ih ih' => simp only [leftChains, ih, ih']
  | between _ _ _ _ ih ih' ih'' => simp only [leftChains, ih, ih', ih'']

/-- Filters have the same chains exactly if they agree when all chains go to the left. -/
theorem sameChains_iff {t t' : Filter} : SameChains t t' ↔ t.leftChains = t'.leftChains := by
  constructor
  · exact SameChains.leftChains_eq
  · intro h
    exact (sameChains_leftChains t).trans (h ▸ (sameChains_leftChains t').symm)

/-! ## Weight -/

/-- How often a leaf under an operator is counted. -/
def weightFactor (op : BinaryOp) : Nat := if operatorStrength op < 6 then 2 else 1

mutual

/-- The number of leaves, each counted twice for every comparison and every concatenation around
it. -/
def weight : Filter → Nat
  | column _ => 1
  | value _ => 1
  | unary _ e => e.weight
  | binary op left right => weightFactor op * (left.weight + right.weight)
  | logical _ left right => left.weight + right.weight
  | isNull e _ => e.weight
  | inList e items _ => e.weight + weightAll items
  | between e low high _ => e.weight + low.weight + high.weight
  | like e pattern _ _ => e.weight + pattern.weight
  | cast e _ => e.weight
  | call _ args => weightAll args + 1
  | unsupported _ => 1

def weightAll : List Filter → Nat
  | [] => 0
  | e :: es => e.weight + weightAll es

end

theorem weightFactor_pos (op : BinaryOp) : 0 < weightFactor op := by
  unfold weightFactor
  split <;> omega

theorem weight_pos : ∀ t : Filter, 0 < t.weight
  | column _ => Nat.one_pos
  | value _ => Nat.one_pos
  | unary _ e => by rw [weight]; exact weight_pos e
  | binary op left _ => by
    rw [weight]
    exact Nat.mul_pos (weightFactor_pos op) (Nat.add_pos_left (weight_pos left) _)
  | logical _ left _ => by rw [weight]; exact Nat.add_pos_left (weight_pos left) _
  | isNull e _ => by rw [weight]; exact weight_pos e
  | inList e _ _ => by rw [weight]; exact Nat.add_pos_left (weight_pos e) _
  | between e low _ _ => by
    rw [weight, Nat.add_assoc]
    exact Nat.add_pos_left (weight_pos e) _
  | like e _ _ _ => by rw [weight]; exact Nat.add_pos_left (weight_pos e) _
  | cast e _ => by rw [weight]; exact weight_pos e
  | call _ args => by rw [weight]; exact Nat.succ_pos _
  | unsupported _ => Nat.one_pos

theorem weightAll_append (ts ts' : List Filter) :
    weightAll (ts ++ ts') = weightAll ts + weightAll ts' := by
  induction ts with
  | nil => rw [List.nil_append, weightAll, Nat.zero_add]
  | cons t ts ih => rw [List.cons_append, weightAll, ih, weightAll, Nat.add_assoc]

theorem SameChains.weight_eq {t t' : Filter} (h : SameChains t t') : t.weight = t'.weight := by
  induction h with
  | refl t => rfl
  | symm _ ih => exact ih.symm
  | trans _ _ ih ih' => exact ih.trans ih'
  | assoc op a b c =>
    simp only [weight]
    omega
  | item negated e front back _ ih => simp only [weight, weightAll_append, weightAll, ih]
  | argument name front back _ ih => simp only [weight, weightAll_append, weightAll, ih]
  | unary _ _ ih => simp only [weight, ih]
  | isNull _ _ ih => simp only [weight, ih]
  | inList _ _ _ ih => simp only [weight, ih]
  | cast _ _ ih => simp only [weight, ih]
  | binary _ _ _ ih ih' => simp only [weight, ih, ih']
  | logical _ _ _ ih ih' => simp only [weight, ih, ih']
  | like _ _ _ _ ih ih' => simp only [weight, ih, ih']
  | between _ _ _ _ ih ih' ih'' => simp only [weight, ih, ih', ih'']

end Filter

end Funnel
