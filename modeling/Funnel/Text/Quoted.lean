/-!
# Quoted text

Between quotes, a quote that belongs to the text is written twice.  `encode` writes a text that
way and `read` takes it back up to the quote that closes it: `read_encode` says that no text can
end its own quotes.  `respell` is the spelling for texts that may have been escaped before: it
leaves pairs of quotes, and quotes after a backslash, as they are.
-/

namespace Funnel.Text.Quoted

/-- Writes every quote twice. -/
def encode (q : Char) : List Char → List Char
  | [] => []
  | c :: cs => if c = q then q :: q :: encode q cs else c :: encode q cs

/-- Reads a text whose opening quote has been taken.  The result is the text and what follows its
closing quote; there is none when no quote closes it. -/
def read (q : Char) : List Char → Option (List Char × List Char)
  | [] => none
  | c :: cs =>
    if c = q then
      match cs with
      | [] => some ([], [])
      | c' :: cs' =>
        if c' = q then (read q cs').map fun (s, r) ↦ (q :: s, r) else some ([], cs)
    else (read q cs).map fun (s, r) ↦ (c :: s, r)

/-- What is written for a text is read as that text, and the reader goes on behind it. -/
theorem read_encode_append (q : Char) (s cs : List Char) :
    read q (encode q s ++ cs) = (read q cs).map fun (t, r) ↦ (s ++ t, r) := by
  induction s with
  | nil => simp [encode]
  | cons c s ih =>
    by_cases hc : c = q
    · subst hc
      rw [encode, if_pos rfl, List.cons_append, List.cons_append, read.eq_def]
      simp [ih, Function.comp_def]
    · rw [encode, if_neg hc, List.cons_append, read.eq_def]
      simp [hc, ih, Function.comp_def]

/-- A quote with no other one behind it closes the text. -/
theorem read_close {q : Char} {r : List Char} (h : r.head? ≠ some q) :
    read q (q :: r) = some ([], r) := by
  cases r with
  | nil => simp [read]
  | cons c r =>
    have hc : c ≠ q := by simpa using h
    simp [read, hc]

/-- A text is read back, whatever follows it, as long as that does not begin with one more
quote. -/
theorem read_encode (q : Char) (s r : List Char) (h : r.head? ≠ some q) :
    read q (encode q s ++ q :: r) = some (s, r) := by
  rw [read_encode_append, read_close h]
  simp

/-- From left to right, a pair of quotes is kept and a single quote is doubled.  A quote right
after a backslash is kept, and so are the quotes that follow it directly; the flag says whether
such a stretch is open. -/
def respell (q : Char) (kept : Bool) : List Char → List Char
  | [] => []
  | c :: cs =>
    if c = q then
      if kept then q :: respell q true cs
      else
        match cs with
        | [] => [q, q]
        | c' :: cs' =>
          if c' = q then q :: q :: respell q false cs'
          else q :: q :: respell q false (c' :: cs')
    else c :: respell q (c == '\\') cs

theorem respell_of_ne {q c : Char} (h : c ≠ q) (kept : Bool) (cs : List Char) :
    respell q kept (c :: cs) = c :: respell q (c == '\\') cs := by
  rw [respell.eq_def]
  simp [h]

theorem respell_kept (q : Char) (cs : List Char) :
    respell q true (q :: cs) = q :: respell q true cs := by
  rw [respell.eq_def]
  simp

theorem respell_pair (q : Char) (cs : List Char) :
    respell q false (q :: q :: cs) = q :: q :: respell q false cs := by
  rw [respell.eq_def]
  simp

theorem respell_single {q : Char} {cs : List Char} (h : cs.head? ≠ some q) :
    respell q false (q :: cs) = q :: q :: respell q false cs := by
  cases cs with
  | nil => simp [respell]
  | cons c cs =>
    have hc : c ≠ q := by simpa using h
    rw [respell.eq_def]
    simp [hc]

/-- A text without quotes is spelled as it is. -/
theorem respell_of_not_mem {q : Char} {s : List Char} (h : q ∉ s) (kept : Bool) :
    respell q kept s = s := by
  induction s generalizing kept with
  | nil => rfl
  | cons c s ih =>
    have hc : c ≠ q := fun e ↦ h (e ▸ List.mem_cons_self)
    rw [respell_of_ne hc, ih fun m ↦ h (List.mem_cons_of_mem _ m)]

/-- A character that is no quote divides a text into two that are spelled apart. -/
theorem respell_append_cons {q c : Char} (h : c ≠ q) (kept : Bool) (s t : List Char) :
    respell q kept (s ++ c :: t) = respell q kept s ++ c :: respell q (c == '\\') t := by
  induction kept, s using respell.induct q with
  | case1 kept => rw [List.nil_append, respell_of_ne h, respell, List.nil_append]
  | case2 s ih => rw [List.cons_append, respell_kept, respell_kept, ih, List.cons_append]
  | case3 kept hkept =>
    obtain rfl : kept = false := by simpa using hkept
    have hnext : (c :: t).head? ≠ some q := by simpa using h
    rw [List.cons_append, List.nil_append, respell_single hnext, respell_single (by simp),
      respell_of_ne h]
    rfl
  | case4 kept hkept s ih =>
    obtain rfl : kept = false := by simpa using hkept
    rw [List.cons_append, List.cons_append, respell_pair, respell_pair, ih]
    rfl
  | case5 kept hkept d s hd ih =>
    obtain rfl : kept = false := by simpa using hkept
    have hnext : (d :: s).head? ≠ some q := by simpa using hd
    rw [List.cons_append, respell_single (by simpa using hd), respell_single hnext, ih]
    rfl
  | case6 kept d s hd ih =>
    rw [List.cons_append, respell_of_ne hd, respell_of_ne hd, ih, List.cons_append]

end Funnel.Text.Quoted
