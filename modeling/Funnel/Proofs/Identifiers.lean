import Funnel.Proofs.Steps
import Mathlib

/-!
# Names as Identifiers

A statement takes names as they are, without quotes.  There a name is an identifier: white space
around it is not part of it, and the case of its letters does not matter (`SameIdentifier`).  The
names of the steps are different identifiers (`sameIdentifier_stepName_iff`).
-/

namespace Funnel

namespace Text

/-- A text without the white space around it. -/
def trimmed (s : String) : String :=
  String.ofList ((s.toList.dropWhile isBlank).rdropWhile isBlank)

/-- Two names are one identifier in a statement.  As in the names of result columns, case is that of
ASCII letters. -/
def SameIdentifier (x y : String) : Prop := sameIgnoringCase (trimmed x) (trimmed y) = true

instance (x y : String) : Decidable (SameIdentifier x y) := inferInstanceAs (Decidable (_ = true))

theorem sameIdentifier_iff {x y : String} :
    SameIdentifier x y ↔
      (trimmed x).toList.map Char.toLower = (trimmed y).toList.map Char.toLower := by
  unfold SameIdentifier sameIgnoringCase
  exact beq_iff_eq

theorem SameIdentifier.refl (x : String) : SameIdentifier x x := sameIdentifier_iff.2 rfl

theorem SameIdentifier.symm {x y : String} (h : SameIdentifier x y) : SameIdentifier y x :=
  sameIdentifier_iff.2 (sameIdentifier_iff.1 h).symm

theorem SameIdentifier.trans {x y z : String} (hxy : SameIdentifier x y)
    (hyz : SameIdentifier y z) : SameIdentifier x z :=
  sameIdentifier_iff.2 ((sameIdentifier_iff.1 hxy).trans (sameIdentifier_iff.1 hyz))

/-! ## White space at the ends -/

theorem dropWhile_isBlank_of_head {c : Char} {cs : List Char} (hc : isBlank c = false) :
    (c :: cs).dropWhile isBlank = c :: cs := by
  rw [List.dropWhile_cons, if_neg (by simp [hc])]

/-- Nothing is trimmed from a text that begins and ends with something else than white space. -/
theorem trimmed_eq_self {s : String} {c : Char} {cs : List Char} (hs : s.toList = c :: cs)
    (hc : isBlank c = false) (hlast : isBlank ((c :: cs).getLast (List.cons_ne_nil c cs)) = false) :
    trimmed s = s := by
  have hright : (c :: cs).rdropWhile isBlank = c :: cs := by
    rw [List.rdropWhile_eq_self_iff]
    intro _
    simp [hlast]
  rw [trimmed, hs, dropWhile_isBlank_of_head hc, hright, ← hs, String.ofList_toList]

/-- Trimming keeps the first character of a text if it is no white space. -/
theorem trimmed_head {s : String} {c : Char} {cs : List Char} (hs : s.toList = c :: cs)
    (hc : isBlank c = false) : ∃ ds, (trimmed s).toList = c :: ds := by
  have hne : (c :: cs).rdropWhile isBlank ≠ [] := by
    rw [Ne, List.rdropWhile_eq_nil_iff]
    intro hall
    simp [hall c List.mem_cons_self] at hc
  have hstart : (c :: cs).rdropWhile isBlank <+: c :: cs := List.rdropWhile_prefix _ _
  obtain ⟨d, ds, hds⟩ := List.exists_cons_of_ne_nil hne
  rw [hds, List.cons_prefix_cons] at hstart
  refine ⟨ds, ?_⟩
  rw [trimmed, hs, dropWhile_isBlank_of_head hc, hds, hstart.1, String.toList_ofList]

/-- Names whose first letters differ are different identifiers. -/
theorem not_sameIdentifier_of_head {x y : String} {c d : Char} {cs ds : List Char}
    (hx : x.toList = c :: cs) (hy : y.toList = d :: ds) (hc : isBlank c = false)
    (hd : isBlank d = false) (hne : c.toLower ≠ d.toLower) : ¬ SameIdentifier x y := by
  obtain ⟨cs', hx'⟩ := trimmed_head hx hc
  obtain ⟨ds', hy'⟩ := trimmed_head hy hd
  rw [sameIdentifier_iff, hx', hy', List.map_cons, List.map_cons, List.cons.injEq]
  exact fun h ↦ hne h.1

/-! ## Digits -/

theorem isBlank_of_isDigit {c : Char} (h : c.isDigit = true) : isBlank c = false := by
  obtain ⟨hlow, hhigh⟩ := isDigit_range h
  simp only [isBlank, Bool.or_eq_false_iff, Bool.and_eq_false_iff, decide_eq_false_iff_not,
    beq_eq_false_iff_ne]
  omega

theorem toLower_of_isDigit {c : Char} (h : c.isDigit = true) : c.toLower = c := by
  have hhigh := (isDigit_range h).2
  have hupper : ¬ (c.val ≥ 'A'.val ∧ c.val ≤ 'Z'.val) := by
    rintro ⟨hge, -⟩
    have : 65 ≤ c.toNat := hge
    omega
  exact dif_neg hupper

end Text

/-! ## The names of the steps -/

theorem toList_stepName (i : Nat) :
    (stepName i).toList = 's' :: 't' :: 'e' :: 'p' :: Nat.toDigits 10 i := by
  simp [stepName]

theorem isDigit_of_mem_digits {i : Nat} {c : Char} (h : c ∈ Nat.toDigits 10 i) :
    c.isDigit = true :=
  Nat.isDigit_of_mem_toDigits (by decide) (by decide) h

theorem trimmed_stepName (i : Nat) : Text.trimmed (stepName i) = stepName i := by
  apply Text.trimmed_eq_self (toList_stepName i) (by decide)
  have hne : Nat.toDigits 10 i ≠ [] := Nat.toDigits_ne_nil
  have hlast : ('s' :: 't' :: 'e' :: 'p' :: Nat.toDigits 10 i).getLast (List.cons_ne_nil _ _) =
      (Nat.toDigits 10 i).getLast hne := by
    simp [List.getLast_cons, hne]
  rw [hlast]
  exact Text.isBlank_of_isDigit (isDigit_of_mem_digits (List.getLast_mem hne))

theorem map_toLower_stepName (i : Nat) :
    (stepName i).toList.map Char.toLower = (stepName i).toList := by
  have hdigits : (Nat.toDigits 10 i).map Char.toLower = Nat.toDigits 10 i := by
    calc
      _ = (Nat.toDigits 10 i).map id :=
        List.map_congr_left fun c hc ↦ Text.toLower_of_isDigit (isDigit_of_mem_digits hc)
      _ = Nat.toDigits 10 i := List.map_id _
  rw [toList_stepName]
  simp only [List.map_cons, hdigits]
  rfl

/-- The names of different steps are different identifiers. -/
theorem sameIdentifier_stepName_iff {i j : Nat} :
    Text.SameIdentifier (stepName i) (stepName j) ↔ i = j := by
  rw [Text.sameIdentifier_iff, trimmed_stepName, trimmed_stepName, map_toLower_stepName,
    map_toLower_stepName, String.toList_inj, stepName_injective.eq_iff]

/-- No table is named like a step: its name begins with that of its schema. -/
theorem not_sameIdentifier_qualified (t : DailyTable) (i : Nat) :
    ¬ Text.SameIdentifier t.qualified (stepName i) := by
  obtain ⟨schema, name⟩ := t
  cases schema with
  | continuous =>
    have hname : (DailyTable.qualified ⟨.continuous, name⟩).toList =
        'c' :: ("ontinuous.".toList ++ name.toList) := by
      simp [DailyTable.qualified, Schema.name]
    exact Text.not_sameIdentifier_of_head hname (toList_stepName i) (by decide) (by decide)
      (by decide)
  | materialized =>
    have hname : (DailyTable.qualified ⟨.materialized, name⟩).toList =
        'm' :: ("aterialized.".toList ++ name.toList) := by
      simp [DailyTable.qualified, Schema.name]
    exact Text.not_sameIdentifier_of_head hname (toList_stepName i) (by decide) (by decide)
      (by decide)

end Funnel
