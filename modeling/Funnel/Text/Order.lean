/-!
# The order of names

Names are ordered by the code points of their characters, the first difference deciding; a name
comes before its continuations.
-/

namespace Funnel.Text

def Precedes : List Char → List Char → Prop
  | _, [] => False
  | [], _ :: _ => True
  | c :: cs, d :: ds => c.toNat < d.toNat ∨ c.toNat = d.toNat ∧ Precedes cs ds

instance decidablePrecedes : (s t : List Char) → Decidable (Precedes s t)
  | [], [] | _ :: _, [] => .isFalse id
  | [], _ :: _ => .isTrue trivial
  | c :: cs, d :: ds =>
    have := decidablePrecedes cs ds
    inferInstanceAs (Decidable (c.toNat < d.toNat ∨ c.toNat = d.toNat ∧ Precedes cs ds))

theorem not_precedes_self (s : List Char) : ¬ Precedes s s := by
  induction s with
  | nil => exact id
  | cons c cs ih =>
    rintro (h | ⟨-, h⟩)
    · exact Nat.lt_irrefl _ h
    · exact ih h

theorem Precedes.trans {s t u : List Char} (hst : Precedes s t) (htu : Precedes t u) :
    Precedes s u := by
  induction s generalizing t u with
  | nil =>
    match t, u with
    | _ :: _, _ :: _ => trivial
  | cons c cs ih =>
    match t, u with
    | d :: ds, e :: es =>
      rcases hst with h | ⟨h, hs⟩ <;> rcases htu with h' | ⟨h', ht⟩
      · exact .inl (Nat.lt_trans h h')
      · exact .inl (h' ▸ h)
      · exact .inl (h ▸ h')
      · exact .inr ⟨h.trans h', ih hs ht⟩

theorem precedes_trichotomy (s t : List Char) : Precedes s t ∨ s = t ∨ Precedes t s := by
  induction s generalizing t with
  | nil =>
    cases t with
    | nil => exact .inr (.inl rfl)
    | cons d ds => exact .inl trivial
  | cons c cs ih =>
    cases t with
    | nil => exact .inr (.inr trivial)
    | cons d ds =>
      rcases Nat.lt_trichotomy c.toNat d.toNat with h | h | h
      · exact .inl (.inl h)
      · rcases ih ds with hs | rfl | hs
        · exact .inl (.inr ⟨h, hs⟩)
        · exact .inr (.inl (by rw [Char.toNat_inj.1 h]))
        · exact .inr (.inr (.inr ⟨h.symm, hs⟩))
      · exact .inr (.inr (.inl h))

end Funnel.Text
