import Mathlib
import Funnel.Proofs.Lexing

/-!
# Progress of the Lexer

Whatever is read from the front of a text, the rest is an end of the text (`LeavesEnd`), and a step
of the lexer takes at least one character (`leavesEnd_scan`).  So the length of a text pays for all
steps on it: more fuel changes nothing (`lexIn_eq_lex`), and the tokens of a text are what its first
step finds and the tokens of what that step leaves (`lex_cons`).
-/

namespace Funnel.Text

/-! ## Ends of texts -/

/-- Whatever is found at the front of the text, an end of the text is left. -/
def LeavesEnd {α : Type} (found : Option (α × List Char)) (cs : List Char) : Prop :=
  ∀ p ∈ found, p.2 <:+ cs

namespace LeavesEnd

variable {α β : Type} {found : Option (α × List Char)} {cs ds rest : List Char}

theorem none : LeavesEnd (α := α) none cs := by
  rintro p ⟨⟩

theorem some (a : α) (h : rest <:+ cs) : LeavesEnd (some (a, rest)) cs := by
  rintro p ⟨⟩
  exact h

theorem mono (h : LeavesEnd found cs) (hcs : cs <:+ ds) : LeavesEnd found ds :=
  fun p hp ↦ (h p hp).trans hcs

theorem cons (h : LeavesEnd found cs) (c : Char) : LeavesEnd found (c :: cs) :=
  h.mono (List.suffix_cons c cs)

theorem bind (h : LeavesEnd found cs) {f : α × List Char → Option (β × List Char)}
    (hf : ∀ a rest, LeavesEnd (f (a, rest)) rest) : LeavesEnd (found.bind f) cs := by
  intro p hp
  obtain ⟨⟨a, rest⟩, hfound, hrest⟩ := Option.mem_bind_iff.1 hp
  exact (hf a rest p hrest).trans (h _ hfound)

theorem map (h : LeavesEnd found cs) {f : α × List Char → β × List Char}
    (hf : ∀ a rest, (f (a, rest)).2 = rest) : LeavesEnd (found.map f) cs := by
  intro p hp
  obtain ⟨⟨a, rest⟩, hfound, rfl⟩ := Option.mem_map.1 hp
  rw [hf]
  exact h _ hfound

end LeavesEnd

/-! ## Quoted and escaped texts -/

theorem Quoted.leavesEnd_read (q : Char) (cs : List Char) : LeavesEnd (read q cs) cs := by
  fun_induction read q cs with
  | case1 => exact .none
  | case2 => exact .some _ (List.suffix_cons _ _)
  | case3 cs ih => exact ((ih.map fun _ _ ↦ rfl).cons _).cons _
  | case4 c cs hc => exact .some _ (List.suffix_cons _ _)
  | case5 c cs hc ih => exact (ih.map fun _ _ ↦ rfl).cons c

namespace Escape

theorem leavesEnd_readCodes (q : Char) (cs : List Char) : LeavesEnd (readCodes q cs) cs := by
  fun_induction readCodes q cs with
  | case1 => exact .none
  | case2 => exact .some _ (List.suffix_cons _ _)
  | case3 cs ih => exact ((ih.map fun _ _ ↦ rfl).cons _).cons _
  | case4 c cs hc => exact .some _ (List.suffix_cons _ _)
  | case5 hq => exact .none
  | case6 c cs hq ih => exact ((ih.map fun _ _ ↦ rfl).cons _).cons _
  | case7 c cs hq hc ih => exact (ih.map fun _ _ ↦ rfl).cons c

/-- What is left does not depend on the value that is found. -/
theorem leavesEnd_map_drop {α β : Type} (found : Option α) (f : α → β) (n : Nat)
    (cs : List Char) : LeavesEnd (found.map fun a ↦ (f a, cs.drop n)) cs := by
  intro p hp
  obtain ⟨a, -, rfl⟩ := Option.mem_map.1 hp
  exact List.drop_suffix n cs

theorem leavesEnd_fixedHex? (count : Nat) (cs : List Char) : LeavesEnd (fixedHex? count cs) cs := by
  unfold fixedHex?
  dsimp only
  split_ifs
  · exact leavesEnd_map_drop _ _ _ _
  · exact .none

theorem leavesEnd_numbered? (cs : List Char) : LeavesEnd (numbered? cs) cs := by
  cases cs with
  | nil => exact .none
  | cons c cs =>
    have hvalue : ∀ {found : Option (Char × List Char)}, LeavesEnd found cs →
        LeavesEnd (found.bind fun p ↦ if p.1.toNat = 0 then none else some (p.1, p.2)) cs := by
      intro found h
      refine h.bind fun value rest ↦ ?_
      dsimp only
      split_ifs
      · exact .none
      · exact .some _ List.suffix_rfl
    have hplain : ∀ value : Char, LeavesEnd (some (value, cs)) cs :=
      fun value ↦ .some value List.suffix_rfl
    refine LeavesEnd.cons ?_ c
    unfold numbered?
    dsimp only
    split
    · exact hvalue (hplain _)
    · exact hvalue (hplain _)
    · exact hvalue (hplain _)
    · exact hvalue (hplain _)
    · exact hvalue (hplain _)
    · exact hvalue (leavesEnd_fixedHex? 4 cs)
    · exact hvalue (leavesEnd_fixedHex? 8 cs)
    · split
      · exact hvalue (hplain _)
      · exact hvalue (leavesEnd_map_drop _ _ _ _)
    · split_ifs
      · exact hvalue (leavesEnd_map_drop _ _ _ _)
      · exact hvalue (hplain _)

theorem leavesEnd_readNumberedIn (n : Nat) (cs : List Char) :
    LeavesEnd (readNumberedIn n cs) cs := by
  fun_induction readNumberedIn n cs with
  | case1 cs => exact .none
  | case2 n hn => exact .none
  | case3 n cs ih => exact ((ih.map fun _ _ ↦ rfl).cons _).cons _
  | case4 n cs hn hcs => exact .some _ (List.suffix_cons _ _)
  | case5 n cs ih =>
    refine LeavesEnd.cons (LeavesEnd.bind (leavesEnd_numbered? cs) fun c rest ↦ ?_) _
    exact (ih rest).map fun _ _ ↦ rfl
  | case6 n c cs h₁ h₂ h₃ ih => exact (ih.map fun _ _ ↦ rfl).cons c

theorem leavesEnd_codePoint (count value : Nat) (cs : List Char) :
    LeavesEnd (codePoint count value cs).toOption cs := by
  induction count generalizing value cs with
  | zero =>
    unfold codePoint
    split
    · exact .some _ List.suffix_rfl
    · exact .none
  | succ count ih =>
    unfold codePoint
    split
    · exact .none
    · split
      · exact (ih _ _).cons _
      · exact .none

theorem toOption_bind {ε α β : Type} (x : Except ε α) (f : α → Except ε β) :
    (x >>= f).toOption = x.toOption.bind fun a ↦ (f a).toOption := by
  cases x <;> rfl

theorem leavesEnd_readCodePointsIn (n : Nat) (cs : List Char) :
    LeavesEnd (readCodePointsIn n cs).toOption cs := by
  -- What the rest of the text is read as comes behind one more character.
  have hnext : ∀ (c : Char) {rest : List Char} {found : Except (Problem × List Char) _},
      LeavesEnd found.toOption rest →
      LeavesEnd (found >>= fun p ↦ pure (c :: p.1, p.2) :
        Except (Problem × List Char) (List Char × List Char)).toOption rest := by
    intro c rest found h
    rw [toOption_bind]
    exact h.bind fun _ _ ↦ .some _ List.suffix_rfl
  fun_induction readCodePointsIn n cs with
  | case1 => exact .none
  | case2 => exact .none
  | case3 n cs ih => exact ((hnext _ ih).cons _).cons _
  | case4 n cs hn hcs => exact .some _ (List.suffix_cons _ _)
  | case5 n cs ih => exact ((hnext _ ih).cons _).cons _
  | case6 n cs ih =>
    rw [toOption_bind]
    exact (((leavesEnd_codePoint 6 0 cs).bind fun c rest ↦ hnext c (ih rest)).cons _).cons _
  | case7 n cs h₁ h₂ ih =>
    rw [toOption_bind]
    exact ((leavesEnd_codePoint 4 0 cs).bind fun c rest ↦ hnext c (ih rest)).cons _
  | case8 n c cs h₁ h₂ h₃ h₄ h₅ ih => exact (hnext c ih).cons c

end Escape

end Funnel.Text

namespace Funnel.Sql

open Text (LeavesEnd)

/-! ## Numerals and signs -/

namespace Numeral

theorem mantissa_fst_append_snd (cs : List Char) : (mantissa cs).1 ++ (mantissa cs).2 = cs := by
  rw [mantissa]
  split
  · next ds hds =>
    calc cs.takeWhile Char.isDigit ++ '.' :: ds.takeWhile Char.isDigit ++ ds.dropWhile Char.isDigit
        = cs.takeWhile Char.isDigit ++ '.' :: ds := by
          rw [List.append_assoc, List.cons_append, List.takeWhile_append_dropWhile]
      _ = cs := by rw [← hds, List.takeWhile_append_dropWhile]
  · exact List.takeWhile_append_dropWhile

theorem power_fst_append_snd (cs : List Char) : (power cs).1 ++ (power cs).2 = cs := by
  rw [power]
  split
  · rfl
  · next mark hmark =>
    have hprefix : mark <+: cs := by simpa using List.find?_some hmark
    dsimp only
    split_ifs
    · rfl
    · rw [List.append_assoc, List.takeWhile_append_dropWhile]
      exact List.prefix_iff_eq_append.1 hprefix

/-- What is taken for a numeral and what is left make up the text. -/
theorem append_of_read? {cs rest : List Char} {n : Numeral} (h : read? cs = some (n, rest)) :
    n.text.toList ++ rest = cs := by
  rw [read?] at h
  split_ifs at h
  obtain ⟨rfl, rfl⟩ := Prod.mk.inj (Option.some.inj h)
  rw [String.toList_ofList, split]
  dsimp only
  rw [List.append_assoc, power_fst_append_snd, mantissa_fst_append_snd]

end Numeral

/-- A sign has at least one character. -/
theorem Symbol.leavesEnd_read (c : Char) (cs : List Char) : LeavesEnd (read (c :: cs)) cs := by
  rintro ⟨s, rest⟩ h
  obtain ⟨⟨spelling, s'⟩, hmem, hfound⟩ := List.exists_of_findSome?_eq_some h
  obtain ⟨d, ds, rfl, -⟩ := Lexer.spellings_apart hmem
  dsimp only at hfound
  split_ifs at hfound
  obtain ⟨-, rfl⟩ := Prod.mk.inj (Option.some.inj hfound)
  exact List.drop_suffix ds.length cs

namespace Lexer

theorem suffix_dropLine (cs : List Char) : dropLine cs <:+ cs := by
  fun_induction dropLine cs with
  | case1 => exact List.suffix_rfl
  | case2 cs => exact List.suffix_cons _ _
  | case3 c cs h ih => exact ih.trans (List.suffix_cons c cs)

theorem suffix_of_dropBlock {depth : Nat} {last : Char} {cs rest : List Char}
    (h : dropBlock depth last cs = some rest) : rest <:+ cs := by
  fun_induction dropBlock depth last cs with
  | case1 => cases h
  | case2 depth last c cs hopen ih => exact (ih h).trans (List.suffix_cons _ _)
  | case3 last c cs hopen hclose =>
    obtain rfl := Option.some.inj h
    exact List.suffix_cons _ _
  | case4 last c cs hopen hclose depth ih => exact (ih h).trans (List.suffix_cons _ _)
  | case5 depth last c cs hopen hclose ih => exact (ih h).trans (List.suffix_cons _ _)

theorem leavesEnd_readTriple (q : Char) (cs : List Char) : LeavesEnd (readTriple q cs) cs := by
  fun_induction readTriple q cs with
  | case1 => exact .none
  | case2 c cs h => exact .some _ ((List.drop_suffix 2 cs).trans (List.suffix_cons _ _))
  | case3 c cs h ih => exact (ih.map fun _ _ ↦ rfl).cons c

theorem leavesEnd_readDollars (dollar : Bool) (cs : List Char) :
    LeavesEnd (readDollars dollar cs) cs := by
  fun_induction readDollars dollar cs with
  | case1 => exact .none
  | case2 cs => exact .some _ (List.suffix_cons _ _)
  | case3 cs ih => exact ih.cons _
  | case4 c cs h ih => exact (ih.map fun _ _ ↦ rfl).cons c
  | case5 c cs h ih => exact (ih.map fun _ _ ↦ rfl).cons c

theorem suffix_of_matchTag {tag cs taken rest : List Char} {agreed : Bool}
    (h : matchTag tag cs = some (taken, agreed, rest)) : rest <:+ cs := by
  fun_induction matchTag tag cs generalizing taken with
  | case1 cs =>
    cases h
    exact List.suffix_rfl
  | case2 => cases h
  | case3 ts c cs ih =>
    obtain ⟨⟨taken', agreed', rest'⟩, hmatch, heq⟩ := Option.map_eq_some_iff.1 h
    cases heq
    exact (ih hmatch).trans (List.suffix_cons _ _)
  | case4 t ts c cs hne =>
    cases h
    exact List.suffix_cons _ _

theorem leavesEnd_readTagged (tag : List Char) (fuel : Nat) (cs : List Char) :
    LeavesEnd (readTagged tag fuel cs) cs := by
  induction fuel generalizing cs with
  | zero => exact .none
  | succ fuel ih =>
    rw [readTagged]
    dsimp only
    split
    · exact .none
    · next d ds hds =>
      have hsuffix : d :: ds <:+ cs := hds ▸ List.dropWhile_suffix _
      refine LeavesEnd.mono ?_ ((List.suffix_cons d ds).trans hsuffix)
      intro p hp
      obtain ⟨⟨taken, agreed, rest⟩, hmatch, hrest⟩ := Option.mem_bind_iff.1 hp
      refine LeavesEnd.mono ?_ (suffix_of_matchTag hmatch) p hrest
      dsimp only
      split_ifs
      · exact .some _ (List.drop_suffix 1 rest)
      · exact (ih rest).map fun _ _ ↦ rfl

/-! ## Steps -/

theorem leavesEnd_token (t : Token) {cs rest : List Char} (h : rest <:+ cs) :
    LeavesEnd (token t rest).toOption cs := .some _ h

theorem leavesEnd_fault (f : LexicalFault) (left : Nat) (cs : List Char) :
    LeavesEnd (fault f left).toOption cs := .none

/-- A literal is read to its end, or there is a fault. -/
theorem leavesEnd_literal {found : Option (List Char × List Char)} {cs : List Char}
    (h : LeavesEnd found cs) (t : List Char → Token) (f : LexicalFault) (left : Nat) :
    LeavesEnd (match found with
      | some (s, rest) => token (t s) rest
      | none => fault f left).toOption cs := by
  cases found with
  | none => exact leavesEnd_fault f left cs
  | some p => exact leavesEnd_token (t p.1) (h p rfl)

theorem leavesEnd_word (first cs : List Char) : LeavesEnd (word first cs).toOption cs :=
  leavesEnd_token _ (List.dropWhile_suffix _)

theorem leavesEnd_quoted (style : StringStyle) (q : Char) (cs : List Char) :
    LeavesEnd (quoted style q cs).toOption (cs.drop 1) :=
  leavesEnd_literal (Text.Quoted.leavesEnd_read q (cs.drop 1)) _ _ _

theorem leavesEnd_quotedName (quote : NameQuote) (cs : List Char) :
    LeavesEnd (quotedName quote cs).toOption cs :=
  leavesEnd_literal (Text.Quoted.leavesEnd_read quote.char cs) _ _ _

theorem leavesEnd_rawString (double : Bool) (q : Char) (cs : List Char) :
    LeavesEnd (rawString double q cs).toOption cs := by
  unfold rawString
  split_ifs
  · exact (leavesEnd_literal (leavesEnd_readTriple q (cs.drop 3)) _ _ _).mono
      (List.drop_suffix 3 cs)
  · exact leavesEnd_token _ (List.drop_suffix 2 cs)
  · exact (leavesEnd_literal (Text.Quoted.leavesEnd_read q (cs.drop 1)) _ _ _).mono
      (List.drop_suffix 1 cs)

theorem leavesEnd_escapedString (cs : List Char) : LeavesEnd (escapedString cs).toOption cs :=
  (leavesEnd_literal (Text.Escape.leavesEnd_readNumberedIn _ (cs.drop 1)) _ _ _).mono
    (List.drop_suffix 1 cs)

theorem leavesEnd_codedString (style : StringStyle) (cs : List Char) :
    LeavesEnd (codedString style cs).toOption cs :=
  (leavesEnd_literal (Text.Escape.leavesEnd_readCodes _ (cs.drop 1)) _ _ _).mono
    (List.drop_suffix 1 cs)

theorem leavesEnd_codePointString (cs : List Char) :
    LeavesEnd (codePointString cs).toOption cs := by
  have hread : LeavesEnd (Text.Escape.readCodePoints (cs.drop 1)).toOption (cs.drop 1) :=
    Text.Escape.leavesEnd_readCodePointsIn _ _
  unfold codePointString
  generalize Text.Escape.readCodePoints (cs.drop 1) = found at hread
  cases found with
  | error e => exact leavesEnd_fault _ _ cs
  | ok p => exact leavesEnd_token _ ((hread p rfl).trans (List.drop_suffix 1 cs))

theorem leavesEnd_dollar (cs : List Char) : LeavesEnd (dollar cs).toOption cs := by
  unfold dollar
  split
  · next cs => exact (leavesEnd_literal (leavesEnd_readDollars false cs) _ _ _).cons '$'
  · dsimp only
    split
    · next rest hrest =>
      have hsuffix : '$' :: rest <:+ cs := hrest ▸ List.dropWhile_suffix _
      exact (leavesEnd_literal (leavesEnd_readTagged _ _ rest) _ _ _).mono
        ((List.suffix_cons '$' rest).trans hsuffix)
    · exact leavesEnd_token _ (List.dropWhile_suffix _)

/-- A number takes the digit or the point that it begins with. -/
theorem leavesEnd_number (c : Char) (cs : List Char) :
    LeavesEnd (number (c :: cs)).toOption cs := by
  have hread : ∀ {n rest}, Numeral.read? (c :: cs) = some (n, rest) → rest <:+ cs := by
    intro n rest h
    obtain ⟨d, ds, hds, -⟩ := numeral_head n.spelled
    have happend := Numeral.append_of_read? h
    rw [hds] at happend
    exact ⟨ds, (List.cons.inj happend).2⟩
  unfold number
  split
  · next rest _ hrest =>
    have hsuffix : 'x' :: rest <:+ c :: cs := hrest ▸ List.dropWhile_suffix _
    refine leavesEnd_token _ ((List.dropWhile_suffix _).trans ?_)
    rcases List.suffix_cons_iff.1 hsuffix with heq | hsuffix
    · rw [(List.cons.inj heq).2]
    · exact (List.suffix_cons 'x' rest).trans hsuffix
  · split
    · exact leavesEnd_token _ List.suffix_rfl
    · next n rest h => exact leavesEnd_token _ ((List.suffix_cons 'L' rest).trans (hread h))
    · next n rest _ h => exact leavesEnd_token _ (hread h)

theorem leavesEnd_atWord (cs : List Char) : LeavesEnd (atWord cs).toOption cs := by
  unfold atWord
  split
  · split
    · exact leavesEnd_token _ List.nil_suffix
    · exact leavesEnd_token _ (List.suffix_cons _ _)
    · exact ((leavesEnd_word _ _).cons _).cons _
  · exact leavesEnd_token _ List.suffix_rfl
  · exact leavesEnd_token _ List.suffix_rfl
  · exact (leavesEnd_word _ _).cons _

theorem leavesEnd_sharpWord (cs : List Char) : LeavesEnd (sharpWord cs).toOption cs := by
  unfold sharpWord
  split
  · exact leavesEnd_token _ List.suffix_rfl
  · exact leavesEnd_token _ List.suffix_rfl
  · exact (leavesEnd_word _ _).cons _

theorem leavesEnd_scanPlain (c : Char) (cs : List Char) :
    LeavesEnd (scanPlain c cs).toOption cs := by
  unfold scanPlain
  split
  · next s rest h => exact leavesEnd_token _ (Symbol.leavesEnd_read c cs _ h)
  · split_ifs
    · exact leavesEnd_atWord cs
    · exact leavesEnd_sharpWord cs
    · exact leavesEnd_token _ (List.dropWhile_suffix _)
    · exact leavesEnd_word [c] cs
    · exact leavesEnd_dollar cs
    · exact .some none List.suffix_rfl
    · exact leavesEnd_token _ List.suffix_rfl

/-- A step takes at least one character. -/
theorem leavesEnd_scan (c : Char) (cs : List Char) : LeavesEnd (scan c cs).toOption cs := by
  unfold scan
  split
  · exact leavesEnd_quoted .plain '\x27' _
  · exact leavesEnd_quotedName .double _
  · exact leavesEnd_quotedName .back _
  · exact .some none ((suffix_dropLine _).trans (List.suffix_cons _ _))
  · next cs =>
    split
    · next rest h => exact .some none ((suffix_of_dropBlock h).trans (List.suffix_cons _ _))
    · exact leavesEnd_fault _ _ _
  -- A letter in front of a quote, in either case, opens a literal of its own kind.
  any_goals exact (leavesEnd_quoted _ _ _).cons _
  any_goals exact leavesEnd_rawString _ _ _
  any_goals exact leavesEnd_codedString _ _
  any_goals exact leavesEnd_escapedString _
  any_goals exact (leavesEnd_codePointString _).cons _
  any_goals exact leavesEnd_number _ _
  split_ifs
  · exact leavesEnd_number _ _
  · exact leavesEnd_scanPlain _ _

/-! ## Runs -/

theorem length_le_of_scan {c : Char} {cs rest : List Char} {found : Option Token}
    (h : scan c cs = .ok (found, rest)) : rest.length ≤ cs.length :=
  (leavesEnd_scan c cs (found, rest) (by rw [h]; rfl)).length_le

/-- Fuel for as many steps as the text has characters reads all of it. -/
theorem lexIn_eq_lexIn {fuel fuel' : Nat} {cs : List Char} (h : cs.length ≤ fuel)
    (h' : cs.length ≤ fuel') : lexIn fuel cs = lexIn fuel' cs := by
  induction fuel generalizing fuel' cs with
  | zero =>
    obtain rfl := List.eq_nil_of_length_eq_zero (Nat.le_zero.1 h)
    cases fuel' <;> rfl
  | succ fuel ih =>
    obtain _ | ⟨c, cs⟩ := cs
    · cases fuel' <;> rfl
    obtain _ | fuel' := fuel'
    · simp at h'
    rw [lexIn, lexIn]
    cases hscan : scan c cs with
    | error e => rfl
    | ok found =>
      obtain ⟨found, rest⟩ := found
      -- The step has taken the character that it was paid for, so that both runs can go on.
      have hle := length_le_of_scan hscan
      rw [List.length_cons] at h h'
      have hrest : lexIn fuel rest = lexIn fuel' rest := ih (by omega) (by omega)
      cases found <;> simp only [bind, Except.bind, hrest]

theorem lexIn_eq_lex {fuel : Nat} {cs : List Char} (h : cs.length ≤ fuel) :
    lexIn fuel cs = lex cs := lexIn_eq_lexIn h le_rfl

/-- The tokens of a text are what its first step finds and the tokens of what that step leaves. -/
theorem lex_cons (c : Char) (cs : List Char) :
    lex (c :: cs) = scan c cs >>= fun (found, rest) ↦
      (lex rest).map (found.toList.map (⟨·, cs.length + 1⟩) ++ ·) := by
  rw [lex, List.length_cons, lexIn]
  cases hscan : scan c cs with
  | error e => rfl
  | ok found =>
    obtain ⟨found, rest⟩ := found
    have hrest : lexIn cs.length rest = lex rest := lexIn_eq_lex (length_le_of_scan hscan)
    simp only [bind, Except.bind, pure, Except.pure, hrest]
    cases found <;> cases lex rest <;> rfl

/-- A piece of a text has its tokens, and what stands behind it has those that it has alone. -/
theorem lexes_iff {cs rest : List Char} {ts : List Token} : Lexes cs ts rest ↔
    ∃ ls, ls.map Lexeme.token = ts ∧ lex (cs ++ rest) = (lex rest).map (ls ++ ·) := by
  constructor
  · intro h
    obtain ⟨ls, fuel, hls, hfuel, hrun⟩ := h (cs ++ rest).length le_rfl
    refine ⟨ls, hls, ?_⟩
    rw [← lexIn_eq_lex hfuel]
    exact hrun
  · rintro ⟨ls, hls, hrun⟩ fuel hfuel
    refine ⟨ls, rest.length, hls, le_rfl, ?_⟩
    rw [lexIn_eq_lex hfuel]
    exact hrun

/-- What a run on a text that is not at its end begins with. -/
theorem of_lex_cons {c : Char} {cs : List Char} {ls : List Lexeme} (h : lex (c :: cs) = .ok ls) :
    ∃ found rest ls', scan c cs = .ok (found, rest) ∧ lex rest = .ok ls' ∧
      ls.map Lexeme.token = found.toList ++ ls'.map Lexeme.token := by
  rw [lex_cons] at h
  cases hscan : scan c cs with
  | error e => simp [hscan, bind, Except.bind] at h
  | ok found =>
    obtain ⟨found, rest⟩ := found
    cases hrun : lex rest with
    | error e => simp [hscan, hrun, bind, Except.bind, Except.map] at h
    | ok ls' =>
      obtain rfl : found.toList.map (⟨·, cs.length + 1⟩) ++ ls' = ls := by
        simpa [hscan, hrun, bind, Except.bind, Except.map] using h
      exact ⟨found, rest, ls', rfl, hrun, by simp [Function.comp_def]⟩

/-- What holds of the empty text and is kept by every step holds of a text and its tokens. -/
theorem lex_induction {motive : List Char → List Token → Prop} (nil : motive [] [])
    (step : ∀ {c cs found rest ts}, scan c cs = .ok (found, rest) → motive rest ts →
      motive (c :: cs) (found.toList ++ ts))
    {cs : List Char} {ls : List Lexeme} (h : lex cs = .ok ls) :
    motive cs (ls.map Lexeme.token) := by
  induction hlength : cs.length using Nat.strong_induction_on generalizing cs ls with
  | _ n ih =>
    cases cs with
    | nil =>
      obtain rfl : [] = ls := Except.ok.inj h
      exact nil
    | cons c cs =>
      obtain ⟨found, rest, ls', hscan, hrun, htokens⟩ := of_lex_cons h
      have hshorter : rest.length < n := by
        rw [← hlength, List.length_cons]
        exact Nat.lt_succ_of_le (length_le_of_scan hscan)
      rw [htokens]
      exact step hscan (ih _ hshorter hrun rfl)

end Lexer

end Funnel.Sql
