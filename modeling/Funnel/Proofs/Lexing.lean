import Mathlib
import Funnel.Sql.Lexer

/-!
# Tokens of a Written Text

A text that is put together from the spellings of tokens falls apart into these tokens again.
`Lexes cs ts rest` says so of a piece of the text, given what stands behind it; pieces are put
together by `Lexes.append`, and `Lexes.lex` is the statement for a whole text.  A spelling is read
to its end only if the text behind it does not go on with it, which is what the hypotheses on the
head of `rest` say.
-/

namespace Funnel.Sql.Lexer

/-! ## Pieces of a text -/

/-- Enough fuel for `cs` and `rest` reads `ts` from `cs` and leaves enough of it for `rest`. -/
def Lexes (cs : List Char) (ts : List Token) (rest : List Char) : Prop :=
  ∀ fuel, (cs ++ rest).length ≤ fuel → ∃ ls fuel', ls.map Lexeme.token = ts ∧
    rest.length ≤ fuel' ∧ lexIn fuel (cs ++ rest) = (lexIn fuel' rest).map (ls ++ ·)

theorem Lexes.nil (rest : List Char) : Lexes [] [] rest := by
  intro fuel hfuel
  refine ⟨[], fuel, rfl, hfuel, ?_⟩
  cases h : lexIn fuel rest <;> simp [h, Except.map]

theorem Lexes.append {cs ds rest : List Char} {ts us : List Token} (hc : Lexes cs ts (ds ++ rest))
    (hd : Lexes ds us rest) : Lexes (cs ++ ds) (ts ++ us) rest := by
  intro fuel hfuel
  rw [List.append_assoc] at hfuel ⊢
  obtain ⟨ls, fuel', hls, hfuel', h⟩ := hc fuel hfuel
  obtain ⟨ms, fuel'', hms, hfuel'', h'⟩ := hd fuel' hfuel'
  refine ⟨ls ++ ms, fuel'', by simp [hls, hms], hfuel'', ?_⟩
  rw [h, h']
  cases lexIn fuel'' rest <;> simp [Except.map]

/-- What one step on the front of a text yields. -/
theorem Lexes.of_scan {c : Char} {cs rest : List Char} (found : Option Token)
    (h : scan c (cs ++ rest) = .ok (found, rest)) : Lexes (c :: cs) found.toList rest := by
  intro fuel hfuel
  obtain _ | fuel := fuel
  · simp at hfuel
  have hrest : rest.length ≤ fuel := by simp at hfuel; omega
  cases found with
  | none =>
    refine ⟨[], fuel, rfl, hrest, ?_⟩
    simp only [List.cons_append, lexIn, h, bind, Except.bind]
    cases lexIn fuel rest <;> simp [Except.map]
  | some t =>
    refine ⟨[⟨t, (cs ++ rest).length + 1⟩], fuel, rfl, hrest, ?_⟩
    simp only [List.cons_append, lexIn, h, bind, Except.bind, pure, Except.pure]
    cases lexIn fuel rest <;> simp [Except.map]

theorem Lexes.lex {cs : List Char} {ts : List Token} (h : Lexes cs ts []) :
    ∃ ls, ls.map Lexeme.token = ts ∧ lex cs = .ok ls := by
  obtain ⟨ls, fuel, hls, -, h⟩ := h cs.length (by simp)
  refine ⟨ls, hls, ?_⟩
  rw [List.append_nil] at h
  rw [Lexer.lex, h]
  cases fuel <;> simp [lexIn, Except.map]

/-! ## Signs and spaces -/

theorem lexes_space (rest : List Char) : Lexes [' '] [] rest :=
  .of_scan none rfl

theorem lexes_lparen (rest : List Char) : Lexes ['('] [.symbol .lparen] rest :=
  .of_scan (some (.symbol .lparen)) rfl

theorem lexes_rparen (rest : List Char) : Lexes [')'] [.symbol .rparen] rest :=
  .of_scan (some (.symbol .rparen)) rfl

theorem lexes_comma (rest : List Char) : Lexes [','] [.symbol .comma] rest :=
  .of_scan (some (.symbol .comma)) rfl

/-! ## Words -/

/-- A text that is read as one word.  The signs `#`, `@` and `@@` begin words and are none. -/
def IsWord (cs : List Char) : Prop :=
  (∃ c ds, cs = c :: ds ∧ isWordStart c = true ∧ ∀ d ∈ ds, isWordPart d = true) ∧
    cs ∉ [['#'], ['@'], ['@', '@']]

instance : DecidablePred IsWord
  | [] => .isFalse (by simp [IsWord])
  | c :: ds =>
    decidable_of_iff ((isWordStart c = true ∧ ds.all isWordPart = true) ∧
      c :: ds ∉ [['#'], ['@'], ['@', '@']]) (by simp [IsWord])

/-- Only the signs are shorter than their lead. -/
theorem leadLength_le {cs : List Char} (hnil : cs ≠ []) (hsign : cs ∉ [['#'], ['@'], ['@', '@']]) :
    leadLength cs ≤ cs.length := by
  match cs with
  | [] => exact absurd rfl hnil
  | [c] =>
    unfold leadLength
    split <;> simp_all
  | [c, d] =>
    show leadLength [c, d] ≤ 2
    unfold leadLength
    split <;> simp_all
  | c :: d :: e :: cs =>
    have hlead : leadLength (c :: d :: e :: cs) ≤ 3 := by
      unfold leadLength
      split <;> decide
    exact hlead.trans (by simp)

/-- A word needs no quotes to be a name. -/
theorem isBare_of_isWord {cs : List Char} (h : IsWord cs) : isBare cs = true := by
  obtain ⟨⟨c, ds, rfl, hc, hds⟩, hsign⟩ := h
  have hlead := leadLength_le (List.cons_ne_nil c ds) hsign
  have hpart : ∀ d ∈ c :: ds, isWordPart d = true :=
    List.forall_mem_cons.2 ⟨by simp [isWordPart, hc], hds⟩
  have hrest : ((c :: ds).drop (leadLength (c :: ds))).all isWordPart = true :=
    List.all_eq_true.2 fun d hd ↦ hpart d (List.mem_of_mem_drop hd)
  rw [isBare, hrest, decide_eq_true hlead]
  simp [hc]

/-- The text behind a word ends it. -/
def EndsWord (rest : List Char) : Prop :=
  ∀ d ∈ rest.head?, isWordPart d = false ∧ d ∉ ['\x27', '\x22', '&']

theorem not_isDigit_of_isWordStart {c : Char} (h : isWordStart c = true) : c.isDigit = false := by
  rw [Bool.eq_false_iff]
  intro hd
  have hrange : 48 ≤ c.toNat ∧ c.toNat ≤ 57 := Text.isDigit_range hd
  have hcases : c.toNat = 48 ∨ c.toNat = 49 ∨ c.toNat = 50 ∨ c.toNat = 51 ∨ c.toNat = 52 ∨
      c.toNat = 53 ∨ c.toNat = 54 ∨ c.toNat = 55 ∨ c.toNat = 56 ∨ c.toNat = 57 := by omega
  have hmem : c ∈ ['0', '1', '2', '3', '4', '5', '6', '7', '8', '9'] := by
    rcases hcases with h | h | h | h | h | h | h | h | h | h <;> simp [← Char.toNat_inj, h]
  have hnone : isWordStart c = false := by fin_cases hmem <;> rfl
  exact absurd h (by simp [hnone])

theorem scan_eq_scanPlain {c : Char} {cs : List Char} (hc : isWordStart c = true)
    (hcs : ∀ d ∈ cs.head?, d ∉ ['\x27', '\x22', '&']) : scan c cs = scanPlain c cs := by
  unfold scan
  split <;> first
    | exact absurd hc (by decide)
    | exact absurd (hcs _ rfl) (by decide)
    | simp [not_isDigit_of_isWordStart hc]

/-- No sign begins like a word that has more than one character. -/
theorem spellings_apart {spelling : List Char} {s : Symbol} (h : (spelling, s) ∈ Symbol.spellings) :
    ∃ c ds, spelling = c :: ds ∧ (isWordStart c = false ∨
      (c = '#' ∨ c = '@') ∧ ∃ d es, ds = d :: es ∧ isWordPart d = false) := by
  have hcheck : Symbol.spellings.all (fun p ↦ match p.1 with
      | c :: d :: _ => !isWordStart c || (c == '#' || c == '@') && !isWordPart d
      | [c] => !isWordStart c
      | [] => false) = true := by decide
  have hspelling := List.all_eq_true.1 hcheck _ h
  match spelling, hspelling with
  | c :: d :: es, hspelling => exact ⟨c, d :: es, rfl, by simpa using hspelling⟩
  | [c], hspelling => exact ⟨c, [], rfl, .inl (by simpa using hspelling)⟩

theorem symbol_read_eq_none {c : Char} {cs : List Char} (hc : isWordStart c = true)
    (hcs : c = '#' ∨ c = '@' → ∀ d ∈ cs.head?, isWordPart d = true) :
    Symbol.read (c :: cs) = none := by
  rw [Symbol.read, List.findSome?_eq_none_iff]
  rintro ⟨spelling, symbol⟩ hmem
  have hne : spelling.isPrefixOf (c :: cs) = false := by
    obtain ⟨x, ys, rfl, h | ⟨hsign, d, es, rfl, h⟩⟩ := spellings_apart hmem
    · have hxc : x ≠ c := by rintro rfl; simp [h] at hc
      simp [List.isPrefixOf, hxc]
    · cases cs with
      | nil => simp [List.isPrefixOf]
      | cons e cs =>
        by_cases hxc : x = c
        · have hde : d ≠ e := by
            rintro rfl
            simp [hcs (hxc ▸ hsign) d rfl] at h
          simp [List.isPrefixOf, hde]
        · simp [List.isPrefixOf, hxc]
  simp [hne]

/-- The characters of a word behind `first`, up to the end of the word. -/
theorem word_append {first cs rest : List Char} (hcs : ∀ d ∈ cs, isWordPart d = true)
    (hr : EndsWord rest) :
    word first (cs ++ rest) = token (.ofWord (String.ofList (first ++ cs))) rest := by
  have hrest : ∀ d ∈ rest.head?, isWordPart d = false := fun d hd ↦ (hr d hd).1
  rw [word, takeWhile_run hcs hrest, dropWhile_run hcs hrest]

theorem ne_space_of_isWordPart {c : Char} (h : isWordPart c = true) : c ≠ ' ' := by
  rintro rfl
  exact absurd h (by decide)

/-- What begins with `#` or `@` is a word unless it is a sign. -/
theorem scanPlain_sigil {c : Char} {ds rest : List Char} (hc : c = '#' ∨ c = '@')
    (hds : ∀ d ∈ ds, isWordPart d = true) (hsign : c :: ds ∉ [['#'], ['@'], ['@', '@']])
    (hr : EndsWord rest) :
    scanPlain c (ds ++ rest) = token (.ofWord (String.ofList (c :: ds))) rest := by
  obtain _ | ⟨e, es⟩ := ds
  · rcases hc with rfl | rfl <;> simp at hsign
  have he : isWordPart e = true := hds e List.mem_cons_self
  have hes : ∀ d ∈ es, isWordPart d = true := fun d hd ↦ hds d (List.mem_cons_of_mem _ hd)
  have hread : Symbol.read (c :: (e :: es ++ rest)) = none := by
    refine symbol_read_eq_none ?_ fun _ d hd ↦ ?_
    · rcases hc with rfl | rfl <;> decide
    · obtain rfl : e = d := by simpa using hd
      exact he
  rw [scanPlain, hread]
  rcases hc with rfl | rfl
  · simp [sharpWord, ne_space_of_isWordPart he, word_append hes hr]
  · by_cases hat : e = '@'
    · subst hat
      obtain _ | ⟨f, fs⟩ := es
      · simp at hsign
      have hf : isWordPart f = true := hes f List.mem_cons_self
      have hfs : ∀ d ∈ fs, isWordPart d = true := fun d hd ↦ hes d (List.mem_cons_of_mem _ hd)
      simp [atWord, ne_space_of_isWordPart hf, word_append hfs hr]
    · simp [atWord, ne_space_of_isWordPart he, word_append hes hr]

/-- A word is read to its end. -/
theorem scan_word {cs rest : List Char} (hw : IsWord cs) (hr : EndsWord rest) :
    ∃ c ds, cs = c :: ds ∧ scan c (ds ++ rest) = token (.ofWord (String.ofList cs)) rest := by
  obtain ⟨⟨c, ds, rfl, hc, hds⟩, hsign⟩ := hw
  refine ⟨c, ds, rfl, ?_⟩
  have hquote : ∀ d ∈ (ds ++ rest).head?, d ∉ ['\x27', '\x22', '&'] := by
    cases ds with
    | nil => exact fun d hd ↦ (hr d hd).2
    | cons e ds =>
      intro d hd hmem
      obtain rfl : e = d := by simpa using hd
      have hnone : isWordPart e = false := by fin_cases hmem <;> rfl
      exact absurd (hds e List.mem_cons_self) (by simp [hnone])
  rw [scan_eq_scanPlain hc hquote]
  by_cases hsigil : c = '#' ∨ c = '@'
  · exact scanPlain_sigil hsigil hds hsign hr
  · have hread : Symbol.read (c :: (ds ++ rest)) = none :=
      symbol_read_eq_none hc fun h ↦ absurd h hsigil
    obtain ⟨hsharp, hat⟩ := not_or.1 hsigil
    have hquestion : c ≠ '?' := by
      rintro rfl
      exact absurd hc (by decide)
    simp [scanPlain, hread, hat, hsharp, hquestion, hc, word_append hds hr]

theorem lexes_word {w : String} {rest : List Char} (hw : IsWord w.toList) (hr : EndsWord rest) :
    Lexes w.toList [.ofWord w] rest := by
  obtain ⟨c, ds, hcs, h⟩ := scan_word hw hr
  rw [String.ofList_toList] at h
  rw [hcs]
  exact .of_scan (some (.ofWord w)) h

/-- A period in front of no digit is a sign. -/
theorem scan_period {rest : List Char} (h : ∀ c ∈ rest.head?, c.isDigit = false) :
    scan '.' rest = token (.symbol .period) rest := by
  have hread : Numeral.read? ('.' :: rest) = none := by
    cases rest with
    | nil => rfl
    | cons c rest =>
      have hdigit : c.isDigit = false := h c rfl
      simp [Numeral.read?, Numeral.begins, Numeral.mantissa, hdigit]
  show number ('.' :: rest) = _
  simp [number, hread]

theorem lexes_period {rest : List Char} (h : ∀ c ∈ rest.head?, c.isDigit = false) :
    Lexes ['.'] [.symbol .period] rest :=
  .of_scan (some (.symbol .period)) (scan_period h)

/-! ## Numerals and strings -/

/-- A numeral begins with a digit or with a point. -/
theorem numeral_head {cs : List Char} (h : Numeral.IsSpelling cs) :
    ∃ c ds, cs = c :: ds ∧ (c.isDigit = true ∨ c = '.') := by
  obtain ⟨mantissa, power, ⟨whole, fraction, hw, -, hne, hm⟩, -, rfl⟩ := h
  cases whole with
  | nil =>
    rcases hm with rfl | ⟨rfl, rfl⟩
    · exact ⟨'.', fraction ++ power, rfl, .inr rfl⟩
    · exact absurd rfl hne
  | cons c whole =>
    have hc : c.isDigit = true := hw c List.mem_cons_self
    rcases hm with rfl | ⟨rfl, rfl⟩
    · exact ⟨c, whole ++ '.' :: fraction ++ power, by simp, .inl hc⟩
    · exact ⟨c, whole ++ power, by simp, .inl hc⟩

/-- A digit opens no literal of another kind. -/
theorem scan_eq_number {c : Char} {cs : List Char} (hc : c.isDigit = true ∨ c = '.') :
    scan c cs = number (c :: cs) := by
  rcases hc with hc | rfl
  · unfold scan
    split <;> first
      | exact absurd hc (by decide)
      | rfl
      | simp [hc]
  · rfl

/-- The digits at the front of a numeral are not followed by an `x`. -/
theorem dropWhile_head_ne {cs rest : List Char} (h : Numeral.IsSpelling cs)
    (hr : ∀ c ∈ rest.head?, c.isDigit = false ∧ c ≠ 'x') :
    ((cs ++ rest).dropWhile Char.isDigit).head? ≠ some 'x' := by
  obtain ⟨mantissa, power, ⟨whole, fraction, hw, hf, -, hm⟩, hp, rfl⟩ := h
  have hx : ∀ ds : List Char, (∀ c ∈ ds.head?, c.isDigit = false ∧ c ≠ 'x') →
      ((whole ++ ds).dropWhile Char.isDigit).head? ≠ some 'x' := by
    intro ds hds
    rw [dropWhile_run hw fun c hc ↦ (hds c hc).1]
    intro h
    exact (hds 'x' h).2 rfl
  rcases hm with rfl | ⟨rfl, rfl⟩
  · rw [List.append_assoc, List.append_assoc]
    exact hx _ (by simp)
  · rw [List.append_assoc]
    refine hx _ ?_
    obtain rfl | ⟨mark, digits, hmark, -, -, rfl⟩ := hp
    · exact hr
    · simp only [Numeral.powerMarks, List.mem_cons, List.not_mem_nil, or_false] at hmark
      rcases hmark with rfl | rfl | rfl | rfl | rfl | rfl <;> simp

theorem lexes_numeral (n : Numeral) {rest : List Char}
    (hr : ∀ c ∈ rest.head?, Numeral.continues c = false ∧ c ≠ 'L' ∧ c ≠ 'x') :
    Lexes n.text.toList [.number n false] rest := by
  obtain ⟨c, ds, hcs, hc⟩ := numeral_head n.spelled
  have hread := Numeral.read?_append n fun c hc ↦ (hr c hc).1
  have hdigit : ∀ c ∈ rest.head?, c.isDigit = false ∧ c ≠ 'x' := fun c hc ↦ by
    obtain ⟨hcontinues, -, hx⟩ := hr c hc
    simp only [Numeral.continues, Bool.or_eq_false_iff] at hcontinues
    exact ⟨hcontinues.1.1.1, hx⟩
  have hhex := dropWhile_head_ne n.spelled hdigit
  have hnumber : number (n.text.toList ++ rest) = token (.number n false) rest := by
    unfold number
    split
    · next hdrop => simp [hdrop] at hhex
    · rw [hread]
      cases rest with
      | nil => rfl
      | cons d rest =>
        have hd : d ≠ 'L' := (hr d rfl).2.1
        simp [hd]
  rw [hcs] at hnumber ⊢
  refine .of_scan (some (.number n false)) ?_
  rw [scan_eq_number hc]
  exact hnumber

/-- A string is read to its closing quote. -/
theorem scan_string (s : String) {rest : List Char} (hr : rest.head? ≠ some '\x27') :
    scan '\x27' (Text.Quoted.encode '\x27' s.toList ++ '\x27' :: rest) =
      token (.string .plain s) rest := by
  have h := Text.Quoted.read_encode '\x27' s.toList rest hr
  simp [scan, quoted, h]

theorem lexes_string (s : String) {rest : List Char} (hr : rest.head? ≠ some '\x27') :
    Lexes ('\x27' :: (Text.Quoted.encode '\x27' s.toList ++ ['\x27'])) [.string .plain s] rest := by
  refine .of_scan (some (.string .plain s)) ?_
  rw [List.append_assoc]
  exact scan_string s hr

end Funnel.Sql.Lexer
