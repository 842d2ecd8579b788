import Mathlib
import Funnel.Text.Quoted

/-!
# Quotes That Stand Apart

Which texts are written with all their quotes doubled.  `respell` takes a pair of quotes, and a
quote behind a backslash, for one that has been escaped before, so it writes such quotes as they
are.  What it writes is read back as the text itself if and only if no quote of the text stands
directly behind another one or behind a backslash (`Apart.respell_eq`, `apart_of_read`).
-/

namespace Funnel.Text.Quoted

variable {q : Char}

/-! ## Quotes that stand apart -/

/-- No quote stands directly behind another one or behind a backslash. -/
def Apart (q : Char) (s : List Char) : Prop := s.IsChain fun c d ↦ d = q → c ≠ q ∧ c ≠ '\\'

instance (q : Char) (s : List Char) : Decidable (Apart q s) :=
  inferInstanceAs (Decidable (s.IsChain _))

theorem encode_quote (q : Char) (s : List Char) : encode q (q :: s) = q :: q :: encode q s := by
  rw [encode, if_pos rfl]

theorem encode_of_ne {c : Char} (h : c ≠ q) (s : List Char) :
    encode q (c :: s) = c :: encode q s := by
  rw [encode, if_neg h]

theorem respell_kept_of_head {s : List Char} (h : s.head? ≠ some q) :
    respell q true s = respell q false s := by
  cases s with
  | nil => rfl
  | cons c s =>
    have hc : c ≠ q := by simpa using h
    rw [respell_of_ne hc, respell_of_ne hc]

/-- Quotes that stand apart are all doubled. -/
theorem Apart.respell_eq {s : List Char} (h : Apart q s) : respell q false s = encode q s := by
  induction s with
  | nil => rfl
  | cons c s ih =>
    have hs := ih (List.IsChain.tail h)
    have hhead : ∀ d ∈ s.head?, d = q → c ≠ q ∧ c ≠ '\\' := by
      intro d hd
      obtain ⟨s, rfl⟩ := List.head?_eq_some_iff.1 hd
      exact (List.isChain_cons_cons.1 h).1
    by_cases hc : c = q
    · subst hc
      have hnext : s.head? ≠ some c := fun heq ↦ (hhead c heq rfl).1 rfl
      rw [respell_single hnext, encode_quote, hs]
    · rw [respell_of_ne hc, encode_of_ne hc, ← hs]
      by_cases hback : c = '\\'
      · subst hback
        have hnext : s.head? ≠ some q := fun heq ↦ (hhead q heq rfl).2 rfl
        rw [beq_self_eq_true, respell_kept_of_head hnext]
      · rw [beq_eq_false_iff_ne.2 hback]

/-- The spelling of a text is never longer than the text with all its quotes doubled. -/
theorem length_respell_le (kept : Bool) (s : List Char) :
    (respell q kept s).length ≤ (encode q s).length := by
  induction kept, s using respell.induct q with
  | case1 kept => simp [respell]
  | case2 s ih =>
    rw [respell_kept, encode_quote]
    simp only [List.length_cons]
    omega
  | case3 kept hkept =>
    obtain rfl : kept = false := by simpa using hkept
    simp [encode_quote, respell]
  | case4 kept hkept s ih =>
    obtain rfl : kept = false := by simpa using hkept
    rw [respell_pair, encode_quote, encode_quote]
    simp only [List.length_cons]
    omega
  | case5 kept hkept d s hd ih =>
    obtain rfl : kept = false := by simpa using hkept
    rw [respell_single (by simpa using hd), encode_quote]
    simpa using ih
  | case6 kept c s hc ih =>
    rw [respell_of_ne hc, encode_of_ne hc]
    simpa using ih

/-- It is as long only if the quotes stand apart, and none of them behind what was kept. -/
theorem apart_of_length_le {kept : Bool} {s : List Char}
    (h : (encode q s).length ≤ (respell q kept s).length) :
    Apart q s ∧ (kept = true → s.head? ≠ some q) := by
  induction kept, s using respell.induct q with
  | case1 kept => exact ⟨.nil, by simp⟩
  | case2 s ih =>
    have hle := length_respell_le (q := q) true s
    rw [respell_kept, encode_quote] at h
    simp only [List.length_cons] at h
    omega
  | case3 kept hkept => exact ⟨.singleton q, fun h ↦ absurd h hkept⟩
  | case4 kept hkept s ih =>
    obtain rfl : kept = false := by simpa using hkept
    have hle := length_respell_le (q := q) false s
    rw [respell_pair, encode_quote, encode_quote] at h
    simp only [List.length_cons] at h
    omega
  | case5 kept hkept d s hd ih =>
    obtain rfl : kept = false := by simpa using hkept
    rw [respell_single (by simpa using hd), encode_quote] at h
    simp only [List.length_cons, Nat.add_le_add_iff_right] at h
    exact ⟨.cons_cons (fun heq ↦ absurd heq hd) (ih h).1, by simp⟩
  | case6 kept c s hc ih =>
    rw [respell_of_ne hc, encode_of_ne hc] at h
    simp only [List.length_cons, Nat.add_le_add_iff_right] at h
    obtain ⟨hs, hhead⟩ := ih h
    refine ⟨List.isChain_cons.2 ⟨fun d hd heq ↦ ⟨hc, ?_⟩, hs⟩, fun _ ↦ by simpa using hc⟩
    rintro rfl
    exact hhead (by simp) (heq ▸ hd)

/-! ## What quotes hold -/

theorem filter_encode (q : Char) (s : List Char) :
    (encode q s).filter (· != q) = s.filter (· != q) := by
  induction s with
  | nil => rfl
  | cons c s ih =>
    by_cases hc : c = q
    · subst hc
      rw [encode_quote]
      simpa using ih
    · rw [encode_of_ne hc]
      simp [hc, ih]

/-- Only quotes are added where a text is spelled. -/
theorem filter_respell (q : Char) (kept : Bool) (s : List Char) :
    (respell q kept s).filter (· != q) = s.filter (· != q) := by
  induction kept, s using respell.induct q with
  | case1 kept => rw [respell]
  | case2 s ih =>
    rw [respell_kept]
    simpa using ih
  | case3 kept hkept =>
    obtain rfl : kept = false := by simpa using hkept
    simp [respell]
  | case4 kept hkept s ih =>
    obtain rfl : kept = false := by simpa using hkept
    rw [respell_pair]
    simpa using ih
  | case5 kept hkept d s hd ih =>
    obtain rfl : kept = false := by simpa using hkept
    rw [respell_single (by simpa using hd)]
    simpa using ih
  | case6 kept c s hc ih =>
    rw [respell_of_ne hc]
    simp [hc, ih]

/-- What has been read stood there with its quotes doubled. -/
theorem eq_of_read {cs s rest : List Char} (h : read q cs = some (s, rest)) :
    cs = encode q s ++ q :: rest := by
  induction cs using read.induct q generalizing s rest with
  | case1 => simp [read] at h
  | case2 =>
    obtain ⟨rfl, rfl⟩ : [] = s ∧ [] = rest := by simpa [read] using h
    rfl
  | case3 cs ih =>
    obtain ⟨⟨s', rest'⟩, hread, heq⟩ : ∃ p, read q cs = some p ∧ (q :: p.1, p.2) = (s, rest) := by
      simpa [read] using h
    obtain ⟨rfl, rfl⟩ := Prod.mk.inj heq
    rw [encode_quote, ih hread]
    rfl
  | case4 d cs hd =>
    obtain ⟨rfl, rfl⟩ : [] = s ∧ d :: cs = rest := by simpa [read, hd] using h
    rfl
  | case5 c cs hc ih =>
    obtain ⟨⟨s', rest'⟩, hread, heq⟩ : ∃ p, read q cs = some p ∧ (c :: p.1, p.2) = (s, rest) := by
      rw [read.eq_def] at h
      simpa [hc] using h
    obtain ⟨rfl, rfl⟩ := Prod.mk.inj heq
    rw [encode_of_ne hc, ih hread]
    rfl

/-- A text is read back in front of a character that is no quote only if its quotes stand apart. -/
theorem apart_of_read {s r rest : List Char} {c : Char} (hc : c ≠ q)
    (hr : ∀ d ∈ r.head?, d = c) (h : read q (respell q false s ++ q :: r) = some (s, rest)) :
    Apart q s ∧ rest = r := by
  have hfilter : (encode q s).filter (· != q) = (respell q false s).filter (· != q) :=
    (filter_encode q s).trans (filter_respell q false s).symm
  have heq : respell q false s ++ q :: r = encode q s ++ q :: rest := eq_of_read h
  -- If the text is read beyond its own closing quote, it holds what stands behind that quote, but
  -- the two spellings of it hold the same characters beside quotes.
  obtain ⟨d, hd, hr'⟩ | ⟨d, hd, hrest⟩ := List.append_eq_append_iff.1 heq
  · cases d with
    | nil =>
      have hlength : (encode q s).length ≤ (respell q false s).length := by rw [hd]; simp
      exact ⟨(apart_of_length_le hlength).1, (List.cons.inj hr').2.symm⟩
    | cons x d =>
      obtain ⟨rfl, rfl⟩ := List.cons.inj hr'
      cases d with
      | nil => exact absurd (hr q rfl) hc.symm
      | cons x d =>
        obtain rfl : x = c := hr x rfl
        rw [hd] at hfilter
        simp [hc] at hfilter
  · have hlength : (encode q s).length ≤ (respell q false s).length := by rw [hd]; simp
    have hlength' := length_respell_le (q := q) false s
    obtain rfl : d = [] := by
      rw [hd, List.length_append] at hlength'
      exact List.length_eq_zero_iff.1 (by omega)
    exact ⟨(apart_of_length_le hlength).1, (List.cons.inj hrest).2⟩

end Funnel.Text.Quoted
