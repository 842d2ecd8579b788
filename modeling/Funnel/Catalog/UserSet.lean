import Funnel.Text.Order

/-!
# Daily user sets

What a precomputed table may hold: the users of a collection, day by day, perhaps broken down by
the values of a column.  The name of the table is made from the names of the parts.
-/

namespace Funnel

structure UserSet where
  collection : String
  breakdown : Option String
deriving DecidableEq, Repr

namespace UserSet

/-- The table that would hold the set of users, who are identified by the column `connector`. -/
def tableName (connector : String) (set : UserSet) : String :=
  let plain := connector ++ "s_daily_" ++ set.collection
  match set.breakdown with
  | some column => plain ++ "_by_" ++ column
  | none => plain

/-! ## Order -/

/-- The name of a column, or none at all, which comes first. -/
def BreakdownPrecedes : Option String → Option String → Prop
  | _, none => False
  | none, some _ => True
  | some x, some y => Text.Precedes x.toList y.toList

instance : (x y : Option String) → Decidable (BreakdownPrecedes x y)
  | none, none | some _, none => .isFalse id
  | none, some _ => .isTrue trivial
  | some x, some y => inferInstanceAs (Decidable (Text.Precedes x.toList y.toList))

/-- Sets are listed by collection and then by breakdown. -/
def Precedes (a b : UserSet) : Prop :=
  Text.Precedes a.collection.toList b.collection.toList ∨
    a.collection = b.collection ∧ BreakdownPrecedes a.breakdown b.breakdown

instance (a b : UserSet) : Decidable (a.Precedes b) := inferInstanceAs (Decidable (_ ∨ _))

theorem not_precedes_self (a : UserSet) : ¬ a.Precedes a := by
  rintro (h | ⟨-, h⟩)
  · exact Text.not_precedes_self _ h
  · cases hx : a.breakdown with
    | none => rw [hx] at h; exact h
    | some x => rw [hx] at h; exact Text.not_precedes_self _ h

theorem BreakdownPrecedes.trans {x y z : Option String} (hxy : BreakdownPrecedes x y)
    (hyz : BreakdownPrecedes y z) : BreakdownPrecedes x z := by
  match x, y, z with
  | none, some _, some _ => trivial
  | some _, some _, some _ => exact Text.Precedes.trans hxy hyz

theorem Precedes.trans {a b c : UserSet} (hab : a.Precedes b) (hbc : b.Precedes c) :
    a.Precedes c := by
  rcases hab with hab | ⟨eab, hab⟩ <;> rcases hbc with hbc | ⟨ebc, hbc⟩
  · exact .inl (hab.trans hbc)
  · exact .inl (ebc ▸ hab)
  · exact .inl (eab ▸ hbc)
  · exact .inr ⟨eab.trans ebc, hab.trans hbc⟩

theorem name_trichotomy (x y : String) :
    Text.Precedes x.toList y.toList ∨ x = y ∨ Text.Precedes y.toList x.toList := by
  rcases Text.precedes_trichotomy x.toList y.toList with h | h | h
  · exact .inl h
  · exact .inr (.inl (String.toList_injective h))
  · exact .inr (.inr h)

theorem precedes_trichotomy (a b : UserSet) : a.Precedes b ∨ a = b ∨ b.Precedes a := by
  obtain ⟨c, x⟩ := a
  obtain ⟨d, y⟩ := b
  rcases name_trichotomy c d with h | rfl | h
  · exact .inl (.inl h)
  · match x, y with
    | none, none => exact .inr (.inl rfl)
    | none, some _ => exact .inl (.inr ⟨rfl, trivial⟩)
    | some _, none => exact .inr (.inr (.inr ⟨rfl, trivial⟩))
    | some x, some y =>
      rcases name_trichotomy x y with h | rfl | h
      · exact .inl (.inr ⟨rfl, h⟩)
      · exact .inr (.inl rfl)
      · exact .inr (.inr (.inr ⟨rfl, h⟩))
  · exact .inr (.inr (.inl h))

end UserSet

end Funnel
