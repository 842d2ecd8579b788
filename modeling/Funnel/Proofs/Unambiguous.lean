import Funnel.Proofs.Chains
import Funnel.Proofs.OwnReader
import Funnel.Proofs.Rewriting

/-!
# Filters with One Text

The text of a filter says which filter it is, up to the association of its AND chains and of its OR
chains (`render_eq_render_iff`).  The reader for these texts is led through the text of a filter
from the outside in: wherever a filter of this strength may stand, it comes to the end of the text
with the filter in hand (`Reads`), with the chains of the filter to the left.  A chain on the right
of its own operator has no parentheses, so its links are read as further links of the chain on the
left (`Continues`).

Strings are arbitrary.  Columns and functions have to be words, and none that the writer uses where
an operand may stand; the words that it puts between operands do no harm.
-/

namespace Funnel

open Sql (BinaryOp LogicalOp UnaryOp)

/-! ## Words -/

theorem Breaks.not_isPlain {rest : List Char} (h : Breaks rest) :
    ∀ c ∈ rest.head?, Filter.isPlain c = false := by
  intro c hc
  have hmem := h c hc
  fin_cases hmem <;> decide

theorem Breaks.skip_lparen {rest : List Char} (h : Breaks rest) : Filter.skip "(" rest = none := by
  refine if_neg fun hprefix ↦ ?_
  obtain ⟨cs, rfl⟩ := List.isPrefixOf_iff_prefix.1 hprefix
  exact absurd (h '(' rfl) (by decide)

namespace Filter

/-- A row of characters of names and numbers, such as letters, digits and underscores. -/
structure IsRun (text : String) : Prop where
  ne : text.toList ≠ []
  plain : ∀ c ∈ text.toList, isPlain c = true

theorem not_isPlain_head {c : Char} (h : isPlain c = false) (cs : List Char) :
    ∀ d ∈ (c :: cs).head?, isPlain d = false := by
  rintro d ⟨⟩
  exact h

theorem readOperand_word {word : String} (h : IsRun word) {rest : List Char}
    (hrest : ∀ c ∈ rest.head?, isPlain c = false)
    (read : Nat → List Char → Option (Filter × List Char))
    (readItems : List Char → Option (List Filter × List Char)) :
    readOperand read readItems (word.toList ++ rest) = readWord read readItems word rest := by
  have hhead : ∀ c cs, word.toList ++ rest = c :: cs → isPlain c = true := by
    intro c cs heq
    obtain ⟨d, ds, hds⟩ := List.exists_cons_of_ne_nil h.ne
    rw [hds, List.cons_append] at heq
    obtain ⟨rfl, -⟩ := List.cons.inj heq
    exact h.plain d (by rw [hds]; exact List.mem_cons_self)
  rw [readOperand.eq_def]
  split
  · exact absurd (hhead _ _ ‹_›) (by decide)
  · exact absurd (hhead _ _ ‹_›) (by decide)
  · exact absurd (hhead _ _ ‹_›) (by decide)
  · exact absurd (hhead _ _ ‹_›) (by decide)
  · rw [Sql.takeWhile_run h.plain hrest, Sql.dropWhile_run h.plain hrest, String.ofList_toList,
      if_neg h.ne]

/-! ## Names and numbers -/

/-- The words that the writer puts where an operand may stand. -/
def operandWords : List String := ["NOT", "NULL", "true", "false", "cast"]

/-- A word that can stand for a column or a function. -/
structure IsName (text : String) : Prop extends IsRun text where
  head : ∀ c ∈ text.toList.head?, c.isDigit = false
  not_mem : text ∉ operandWords

/-- A row of characters that begins with a digit. -/
structure IsNumber (text : String) : Prop extends IsRun text where
  head : ∀ c ∈ text.toList.head?, c.isDigit = true

instance : DecidablePred IsRun := fun text ↦
  decidable_of_iff (text.toList ≠ [] ∧ text.toList.all isPlain = true)
    ⟨fun h ↦ ⟨h.1, List.all_eq_true.1 h.2⟩, fun h ↦ ⟨h.ne, List.all_eq_true.2 h.plain⟩⟩

instance : DecidablePred IsName := fun text ↦
  decidable_of_iff (IsRun text ∧ text.toList.head?.all (fun c ↦ !c.isDigit) = true ∧
      text ∉ operandWords)
    ⟨fun h ↦ ⟨h.1, by simpa [Option.all_eq_true] using h.2.1, h.2.2⟩,
      fun h ↦ ⟨h.toIsRun, by simpa [Option.all_eq_true] using h.head, h.not_mem⟩⟩

theorem IsName.ofWord {text : String} (h : IsName text) : ofWord text = column (.plain text) := by
  obtain ⟨c, cs, hcs⟩ := List.exists_cons_of_ne_nil h.ne
  have hdigit : c.isDigit = false := h.head c (by rw [hcs]; rfl)
  have hmem := h.not_mem
  simp only [operandWords, List.mem_cons, List.not_mem_nil, or_false, not_or] at hmem
  simp [Filter.ofWord, hmem, hcs, hdigit]

theorem IsNumber.ofWord {text : String} (h : IsNumber text) :
    ofWord text = value (.number text) := by
  obtain ⟨c, cs, hcs⟩ := List.exists_cons_of_ne_nil h.ne
  have hdigit : c.isDigit = true := h.head c (by rw [hcs]; rfl)
  have hne : ∀ word ∈ operandWords, text ≠ word := by
    rintro word hword rfl
    have hall : ∀ word ∈ operandWords, (word.toList.head?.map Char.isDigit) = some false := by
      decide +kernel
    have hhead := hall text hword
    rw [hcs] at hhead
    simp [hdigit] at hhead
  have hnull : text ≠ "NULL" := hne _ (by decide)
  have htrue : text ≠ "true" := hne _ (by decide)
  have hfalse : text ≠ "false" := hne _ (by decide)
  simp [Filter.ofWord, hnull, htrue, hfalse, hcs, hdigit]

/-! ## Operands -/

theorem reads_word {word : String} (h : IsRun word) (hne : word ≠ "NOT") :
    Reads 9 word (ofWord word) := by
  refine .of_operand fun rest hbreaks _ ↦ .of_forall fun n ↦ ?_
  rw [readOperand_word h hbreaks.not_isPlain, readWord, if_neg hne, hbreaks.skip_lparen]

theorem reads_group {strength : Nat} {text : String} {e : Filter} (h : Reads strength text e) :
    Reads 9 ("(" ++ text ++ ")") e := by
  refine .of_operand fun rest hbreaks _ ↦ ?_
  have hinner : Settles (readAt · 0 (text.toList ++ (')' :: rest))) (e, ')' :: rest) :=
    h.settles (Nat.zero_le _) (.cons (by decide)) (below_of_read?_eq_none rfl 0)
  have hclose : skip ")" (')' :: rest) = some rest := skip_append ")" rest
  have hbehind : closed (e, ')' :: rest) = some (e, rest) := by
    rw [closed, hclose, Option.map_some]
  have hgroup := hinner.bind (.of_forall fun _ ↦ hbehind)
  have htext : ("(" ++ text ++ ")").toList ++ rest = '(' :: (text.toList ++ (')' :: rest)) := by
    simp [String.toList_append]
  rw [htext]
  exact hgroup

theorem reads_guarded {least strength : Nat} {text : String} {e : Filter}
    (h : Reads strength text e) (hle : least ≤ 9) :
    Reads least (guarded least strength text) e := by
  unfold guarded
  split
  · exact (reads_group h).mono hle
  next hstrong => exact h.mono (Nat.not_lt.1 hstrong)

theorem reads_string (text : String) :
    Reads 9 (Value.string text).sql (value (.string text)) := by
  refine .of_operand fun rest hbreaks _ ↦ .of_forall fun n ↦ ?_
  rw [Value.toList_string_append]
  change (Text.Quoted.read _ _).map _ = _
  rw [Text.Quoted.read_encode _ _ _ hbreaks.endsString, Option.map_some, Prod.map_apply,
    String.ofList_toList, id]

/-- Where no filter has the strength, what is weaker than the next one is weaker than it. -/
theorem Below.of_succ {least : Nat} {rest : List Char} (h : Below (least + 1) rest)
    (hne : ∀ sep : Separator, sep.strength ≠ least) : Below least rest :=
  fun sep rest' hread ↦ Nat.lt_of_le_of_ne (Nat.le_of_lt_succ (h sep rest' hread)) (hne sep)

theorem Separator.strength_ne {sep : Separator} : sep.strength ≠ 3 ∧ sep.strength ≠ 8 := by
  cases sep with
  | operator op => rcases op with op | op <;> cases op <;> decide
  | _ => exact ⟨by simp [strength], by simp [strength]⟩

theorem reads_not {text : String} {e : Filter} (h : Reads 3 text e) :
    Reads 3 ("NOT " ++ text) (unary .not e) := by
  refine .of_operand fun rest hbreaks hbelow ↦ ?_
  have hword : IsRun "NOT" := by decide
  have htext : ("NOT " ++ text).toList ++ rest =
      "NOT".toList ++ (' ' :: (text.toList ++ rest)) := by
    rw [String.toList_append, List.append_assoc]
    rfl
  have hoperand := (h.settles (Nat.le_refl 3) hbreaks
    (hbelow.of_succ fun _ ↦ Separator.strength_ne.1)).map (Prod.map (unary .not) id)
  have hend : ∀ c ∈ (' ' :: (text.toList ++ rest)).head?, isPlain c = false :=
    not_isPlain_head rfl _
  simp only [htext, readOperand_word hword hend]
  exact hoperand

theorem reads_sign {op : UnaryOp} (hop : op ≠ .not) {text : String} {e : Filter}
    (h : Reads 8 text e) : Reads 8 (op.text ++ text) (unary op e) := by
  refine .of_operand fun rest hbreaks hbelow ↦ ?_
  have hoperand := (h.settles (Nat.le_refl 8) hbreaks
    (hbelow.of_succ fun _ ↦ Separator.strength_ne.2)).map (Prod.map (unary op) id)
  rw [String.toList_append, List.append_assoc]
  cases op with
  | not => exact absurd rfl hop
  | minus => exact hoperand
  | plus => exact hoperand

theorem reads_unary (op : UnaryOp) {e : Filter} {text : String} {e' : Filter}
    (h : Reads (strength (unary op e)) text e') :
    Reads (strength (unary op e)) (signedText op text) (unary op e') := by
  by_cases hop : op = .not
  · subst hop
    rw [signedText, if_neg (by simp)]
    exact reads_not h
  · have hstrength : strength (unary op e) = 8 := by cases op <;> first | rfl | exact absurd rfl hop
    rw [hstrength] at h ⊢
    unfold signedText
    split
    · have hassoc : op.text ++ "(" ++ text ++ ")" = op.text ++ ("(" ++ text ++ ")") := by
        simp only [String.append_assoc]
      rw [hassoc]
      exact reads_sign hop ((reads_group h).mono (by decide))
    · exact reads_sign hop h

/-! ## Lists -/

theorem settles_readItems {cs rest : List Char} {e : Filter} {result : List Filter × List Char}
    (hread : Settles (readAt · 0 cs) (e, rest))
    (hafter : Settles (fun n ↦ afterItem (readItems n) e rest) result) :
    Settles (readItems · cs) result := by
  obtain ⟨N, hN⟩ := hread
  obtain ⟨M, hM⟩ := hafter
  refine ⟨max N M + 1, fun n hn ↦ ?_⟩
  obtain ⟨m, rfl⟩ : ∃ m, n = m + 1 := ⟨n - 1, by omega⟩
  change readItems (m + 1) cs = some result
  rw [readItems]
  simp only [hN m (by omega)]
  exact hM m (by omega)

theorem settles_commas {texts : List String} {es : List Filter}
    (h : List.Forall₂ (Reads 0) texts es) (rest : List Char) :
    Settles (readItems · ((", ".intercalate texts).toList ++ ')' :: rest)) (es, rest) := by
  have hclose : skip ")" (')' :: rest) = some rest := skip_append ")" rest
  induction h with
  | nil =>
    refine Settles.of_succ (fun n ↦ ?_) (.of_forall fun _ ↦ rfl)
    have hnone : readAt n 0 (')' :: rest) = none := by cases n <;> rfl
    change readItems (n + 1) (')' :: rest) = _
    rw [readItems, hnone]
    simp only [hclose, Option.map_some]
  | @cons text e texts es hread htexts ih =>
    cases htexts with
    | nil =>
      refine settles_readItems (hread.settles (Nat.le_refl 0) (.cons (by decide))
        (below_of_read?_eq_none rfl 0)) (.of_forall fun n ↦ ?_)
      simp only [afterItem, hclose]
    | @cons text' e' texts es hread' htexts =>
      rw [String.intercalate_cons_cons, String.toList_append, String.toList_append,
        List.append_assoc, List.append_assoc]
      have hend : skip ")" (", ".toList ++ ((", ".intercalate (text' :: texts)).toList ++
        ')' :: rest)) = none := rfl
      refine settles_readItems (hread.settles (Nat.le_refl 0) (.cons (by decide))
        (below_of_read?_eq_none rfl 0)) ?_
      simp only [afterItem, hend, skip_append, Option.bind_some]
      exact ih.map (Prod.map (e :: ·) id)

theorem reads_call {name : String} (h : IsName name) {texts : List String} {es : List Filter}
    (hargs : List.Forall₂ (Reads 0) texts es) :
    Reads 9 (name ++ "(" ++ ", ".intercalate texts ++ ")") (call name es) := by
  have hne : name ≠ "NOT" ∧ name ≠ "cast" := by
    have hmem := h.not_mem
    simp only [operandWords, List.mem_cons, List.not_mem_nil, or_false, not_or] at hmem
    exact ⟨hmem.1, hmem.2.2.2.2⟩
  refine .of_operand fun rest hbreaks _ ↦ ?_
  have htext : (name ++ "(" ++ ", ".intercalate texts ++ ")").toList ++ rest =
      name.toList ++ ("(".toList ++ ((", ".intercalate texts).toList ++ ')' :: rest)) := by
    simp [String.toList_append]
  have hend : ∀ c ∈ ("(".toList ++ ((", ".intercalate texts).toList ++ ')' :: rest)).head?,
      isPlain c = false := not_isPlain_head rfl _
  simp only [htext, readOperand_word h.toIsRun hend, readWord, if_neg hne.1, skip_append,
    if_neg hne.2]
  exact (settles_commas hargs rest).map (Prod.map (call name) id)

theorem reads_cast {text type : String} {e : Filter} (h : Reads 0 text e) (htype : IsRun type) :
    Reads 9 ("cast(" ++ text ++ " AS " ++ type ++ ")") (cast e type) := by
  refine .of_operand fun rest hbreaks _ ↦ ?_
  have hword : IsRun "cast" := by decide
  let tail := type.toList ++ ')' :: rest
  have htext : ("cast(" ++ text ++ " AS " ++ type ++ ")").toList ++ rest =
      "cast".toList ++ ("(".toList ++ (text.toList ++ (" AS ".toList ++ tail))) := by
    simp [String.toList_append, tail]
  have hend : ∀ c ∈ ("(".toList ++ (text.toList ++ (" AS ".toList ++ tail))).head?,
      isPlain c = false := not_isPlain_head rfl _
  have hread : Settles (readAt · 0 (text.toList ++ (" AS ".toList ++ tail)))
      (e, " AS ".toList ++ tail) :=
    h.settles (Nat.le_refl 0) (.cons (by decide)) (below_of_read?_eq_none rfl 0)
  have hparen : ∀ c ∈ (')' :: rest).head?, isPlain c = false :=
    not_isPlain_head rfl _
  have htake : tail.takeWhile isPlain = type.toList := Sql.takeWhile_run htype.plain hparen
  have hdrop : tail.dropWhile isPlain = ')' :: rest := Sql.dropWhile_run htype.plain hparen
  have hclose : skip ")" (')' :: rest) = some rest := skip_append ")" rest
  have hne : "cast" ≠ "NOT" := by decide
  simp only [htext, readOperand_word hword hend, readWord, if_neg hne, skip_append, if_true]
  refine hread.bind (.of_forall fun n ↦ ?_)
  simp only [skip_append, Option.bind_some, htake, hdrop, hclose, Option.map_some,
    String.ofList_toList]

/-! ## Operators and tests -/

section Infix

variable {text tail : String} {left right : Filter}

theorem reads_joinedBy (op : Sql.Infix) (hleft : Reads (leftLeast op) text left)
    (hright : Reads (leftLeast op + 1) tail right) :
    Reads (leftLeast op) (text ++ " " ++ op.text ++ " " ++ tail) (joinedBy op left right) := by
  have htext : text ++ " " ++ op.text ++ " " ++ tail =
      text ++ (Separator.operator op).text ++ tail := by
    simp only [Separator.text, String.append_assoc]
  rw [htext]
  refine Reads.extend (.operator op) hleft fun rest hbreaks hbelow ↦ ?_
  exact (hright.settles (Nat.le_refl _) hbreaks hbelow).map (Prod.map (joinedBy op left) id)

theorem reads_isNull (negated : Bool) (hleft : Reads operandStrength text left) :
    Reads 4 (text ++ " IS " ++ Sql.negation negated ++ "NULL") (isNull left negated) := by
  have htext : text ++ " IS " ++ Sql.negation negated ++ "NULL" =
      text ++ (Separator.isNull negated).text ++ "" := by
    simp only [Separator.text, String.append_assoc, String.append_empty]
  rw [htext]
  exact Reads.extend (.isNull negated) (hleft.mono (Nat.le_succ 4))
    fun rest _ _ ↦ .of_forall fun _ ↦ rfl

theorem reads_inList (negated : Bool) (hleft : Reads operandStrength text left)
    {texts : List String} {items : List Filter} (hitems : List.Forall₂ (Reads 0) texts items) :
    Reads 4 (text ++ testWord negated "IN" ++ "(" ++ ", ".intercalate texts ++ ")")
      (inList left items negated) := by
  have htext : text ++ testWord negated "IN" ++ "(" ++ ", ".intercalate texts ++ ")" =
      text ++ (Separator.inList negated).text ++ (", ".intercalate texts ++ ")") := by
    simp only [Separator.text, String.append_assoc]
  rw [htext]
  refine Reads.extend (.inList negated) (hleft.mono (Nat.le_succ 4)) fun rest _ _ ↦ ?_
  rw [String.toList_append, List.append_assoc]
  exact (settles_commas hitems rest).map (Prod.map (inList left · negated) id)

theorem reads_between (negated : Bool) (hleft : Reads operandStrength text left)
    {lowText highText : String} {low high : Filter} (hlow : Reads operandStrength lowText low)
    (hhigh : Reads operandStrength highText high) :
    Reads 4 (text ++ testWord negated "BETWEEN" ++ lowText ++ " AND " ++ highText)
      (between left low high negated) := by
  have htext : text ++ testWord negated "BETWEEN" ++ lowText ++ " AND " ++ highText =
      text ++ (Separator.between negated).text ++ (lowText ++ " AND " ++ highText) := by
    simp only [Separator.text, String.append_assoc]
  rw [htext]
  refine Reads.extend (.between negated) (hleft.mono (Nat.le_succ 4)) fun rest hbreaks hbelow ↦ ?_
  rw [String.toList_append, String.toList_append, List.append_assoc, List.append_assoc]
  -- The word between the limits is the separator of a chain, too weak for the lower one.
  have hand : Below operandStrength (" AND ".toList ++ (highText.toList ++ rest)) :=
    below_append (.operator (.logical .and)) (by decide) _
  refine (hlow.settles (Nat.le_refl _) (.cons (by decide)) hand).bind ?_
  exact (hhigh.settles (Nat.le_refl _) hbreaks hbelow).map
    (Prod.map (between left low · negated) id)

theorem reads_like (negated ignoreCase : Bool) (hleft : Reads operandStrength text left)
    (hright : Reads operandStrength tail right) :
    Reads 4 (text ++ testWord negated (Sql.likeWord ignoreCase) ++ tail)
      (like left right negated ignoreCase) := by
  refine Reads.extend (.like negated ignoreCase) (hleft.mono (Nat.le_succ 4))
    fun rest hbreaks hbelow ↦ ?_
  exact (hright.settles (Nat.le_refl _) hbreaks hbelow).map
    (Prod.map (like left · negated ignoreCase) id)

end Infix

/-! ## Chains -/

/-- Behind a filter and the operator of a chain, the text is read as more links of the chain. -/
def Continues (op : LogicalOp) (text : String) (e : Filter) : Prop :=
  ∀ least ≤ leftLeast (.logical op), ∀ left rest, Breaks rest →
    Below (leftLeast (.logical op) + 1) rest → ∀ result,
      Settles (readMore · least (chained op left e) rest) result →
      Settles (readMore · least left
        ((Separator.operator (.logical op)).text.toList ++ (text.toList ++ rest))) result

theorem continues_of_reads {op : LogicalOp} {text : String} {e : Filter}
    (h : Reads (leftLeast (.logical op) + 1) text e) (hlink : e.isChain op = false) :
    Continues op text e := by
  intro least hle left rest hbreaks hbelow result hresult
  rw [chained_of_not_chain hlink] at hresult
  refine settles_readMore (.operator (.logical op)) hle ?_ hresult
  exact (h.settles (Nat.le_refl _) hbreaks hbelow).map (Prod.map (logical op left) id)

/-- Only a chain has the strength of a chain. -/
theorem strength_ne_of_not_chain {op : LogicalOp} {t : Filter} (h : t.isChain op = false) :
    t.strength ≠ leftLeast (.logical op) := by
  cases t with
  | logical inner l r =>
    cases inner <;> cases op <;> simp [isChain, strength, leftLeast] at h ⊢
  | unary op' e => cases op' <;> cases op <;> simp [strength, leftLeast]
  | binary op' l r => cases op' <;> cases op <;> simp [strength, operatorStrength, leftLeast]
  | _ => cases op <;> simp [strength, leftLeast]

theorem leftLeast_logical_le (op : LogicalOp) : leftLeast (.logical op) ≤ 2 := by
  cases op <;> decide

/-! ## Filters and their texts -/

/-- The text of the filter is read as the filter with its chains to the left, and behind the
operator of a chain it is read as links of the chain. -/
structure ReadsBack (t : Filter) : Prop where
  reads : Reads t.strength t.render t.leftChains
  continues : ∀ op,
    Continues op (guarded (leftLeast (.logical op)) t.strength t.render) t.leftChains

theorem continues_guarded {op : LogicalOp} {t : Filter}
    (h : Reads t.strength t.render t.leftChains) (hlink : t.isChain op = false) :
    Continues op (guarded (leftLeast (.logical op)) t.strength t.render) t.leftChains := by
  have hne := strength_ne_of_not_chain hlink
  have hle := leftLeast_logical_le op
  refine continues_of_reads ?_ (by rw [isChain_leftChains, hlink])
  unfold guarded
  split
  · exact (reads_group h).mono (by omega)
  · exact h.mono (by omega)

/-- A filter that is no chain is the only link of one. -/
theorem ReadsBack.of_link {t : Filter} (h : Reads t.strength t.render t.leftChains)
    (hlink : ∀ op, t.isChain op = false) : ReadsBack t :=
  ⟨h, fun op ↦ continues_guarded h (hlink op)⟩

theorem ReadsBack.guarded {t : Filter} (h : ReadsBack t) {least : Nat} (hle : least ≤ 9) :
    Reads least (guarded least t.strength t.render) t.leftChains :=
  reads_guarded h.reads hle

theorem ReadsBack.logical {op : LogicalOp} {l r : Filter} (hl : ReadsBack l) (hr : ReadsBack r) :
    ReadsBack (logical op l r) := by
  have hrender : (Filter.logical op l r).render =
      Funnel.guarded (leftLeast (.logical op)) l.strength l.render ++
        (Separator.operator (.logical op)).text ++
        Funnel.guarded (leftLeast (.logical op)) r.strength r.render := by
    rw [render_logical, strength_logical]
    simp only [Separator.text, Sql.Infix.text, String.append_assoc]
  have hle := leftLeast_logical_le op
  have hreads : Reads (Filter.logical op l r).strength (Filter.logical op l r).render
      (Filter.logical op l r).leftChains := by
    rw [strength_logical, hrender]
    intro least hleast rest hbreaks hbelow result hresult
    rw [String.toList_append, String.toList_append, List.append_assoc, List.append_assoc]
    refine hl.guarded (by omega) least hleast _ (breaks_separator (.operator (.logical op)) _)
      (below_append (.operator (.logical op)) (Nat.lt_succ_self _) _) result ?_
    exact hr.continues op least hleast _ rest hbreaks hbelow result hresult
  refine ⟨hreads, fun op' ↦ ?_⟩
  by_cases hop : op = op'
  · subst hop
    rw [strength_logical, Funnel.guarded, if_neg (Nat.lt_irrefl _), hrender]
    intro least hleast left rest hbreaks hbelow result hresult
    rw [leftChains, ← chained_assoc] at hresult
    rw [String.toList_append, String.toList_append, List.append_assoc, List.append_assoc]
    refine hl.continues op least hleast left _ (breaks_separator (.operator (.logical op)) _)
      (below_append (.operator (.logical op)) (Nat.lt_succ_self _) _) result ?_
    exact hr.continues op least hleast _ rest hbreaks hbelow result hresult
  · exact continues_guarded hreads (by simpa [isChain] using hop)

/-! ## Plain filters -/

mutual

/-- There are no unsupported nodes, columns and functions are named by words that nothing else is
written with, and types and numbers are rows of such characters. -/
def Plain : Filter → Prop
  | column ref => IsName ref.name ∧ ref = .plain ref.name
  | value (.number digits) => IsNumber digits
  | value _ => True
  | unary _ e => e.Plain
  | binary _ left right => left.Plain ∧ right.Plain
  | logical _ left right => left.Plain ∧ right.Plain
  | isNull e _ => e.Plain
  | inList e items _ => e.Plain ∧ PlainAll items
  | between e low high _ => e.Plain ∧ low.Plain ∧ high.Plain
  | like e pattern _ _ => e.Plain ∧ pattern.Plain
  | cast e type => e.Plain ∧ IsRun type
  | call name args => IsName name ∧ PlainAll args
  | unsupported _ => False

def PlainAll : List Filter → Prop
  | [] => True
  | e :: es => e.Plain ∧ PlainAll es

end

theorem reads_value {v : Value} (h : (value v).Plain) : Reads 9 v.sql (value v) := by
  cases v with
  | string text => exact reads_string text
  | number digits =>
    have hnumber : IsNumber digits := h
    have hne : digits ≠ "NOT" := by
      rintro rfl
      exact absurd (hnumber.head 'N' rfl) (by decide)
    rw [← hnumber.ofWord]
    exact reads_word hnumber.toIsRun hne
  | boolean b =>
    cases b with
    | false => exact reads_word (by decide) (by decide)
    | true => exact reads_word (by decide) (by decide)
  | null => exact reads_word (by decide) (by decide)

mutual

theorem readsBack (t : Filter) (h : t.Plain) : ReadsBack t := by
  cases t with
  | column ref =>
    obtain ⟨hname, href⟩ := h
    refine .of_link ?_ fun _ ↦ rfl
    have hne : ref.name ≠ "NOT" := fun heq ↦ hname.not_mem (by rw [heq]; decide)
    have hread := reads_word hname.toIsRun hne
    rw [hname.ofWord, ← href] at hread
    have htext : (column ref).render = ref.name := by rw [href]; rfl
    rw [htext]
    exact hread
  | value v => exact .of_link (reads_value h) fun _ ↦ rfl
  | unary op e =>
    have he := readsBack e h
    have hle : strength (unary op e) ≤ 9 := by cases op <;> simp [strength]
    refine .of_link ?_ fun _ ↦ rfl
    rw [render_unary, leftChains]
    exact reads_unary op (he.guarded hle)
  | binary op left right =>
    have hl := readsBack left h.1
    have hr := readsBack right h.2
    have hle : operatorStrength op + 1 ≤ 9 := by cases op <;> decide
    refine .of_link ?_ fun _ ↦ rfl
    exact reads_joinedBy (.binary op) (hl.guarded (Nat.le_of_succ_le hle)) (hr.guarded hle)
  | logical op left right => exact (readsBack left h.1).logical (readsBack right h.2)
  | isNull e negated =>
    have he := readsBack e h
    exact .of_link (reads_isNull negated (he.guarded (by decide))) fun _ ↦ rfl
  | inList e items negated =>
    have he := readsBack e h.1
    have hitems := readsAll items h.2
    refine .of_link ?_ fun _ ↦ rfl
    rw [render_inList, leftChains]
    exact reads_inList negated (he.guarded (by decide)) hitems
  | between e low high negated =>
    have he := readsBack e h.1
    have hlow := readsBack low h.2.1
    have hhigh := readsBack high h.2.2
    exact .of_link (reads_between negated (he.guarded (by decide)) (hlow.guarded (by decide))
      (hhigh.guarded (by decide))) fun _ ↦ rfl
  | like e pattern negated ignoreCase =>
    have he := readsBack e h.1
    have hpattern := readsBack pattern h.2
    exact .of_link (reads_like negated ignoreCase (he.guarded (by decide))
      (hpattern.guarded (by decide))) fun _ ↦ rfl
  | cast e type =>
    have he := readsBack e h.1
    exact .of_link (reads_cast (he.reads.mono (Nat.zero_le _)) h.2) fun _ ↦ rfl
  | call name args =>
    have hargs := readsAll args h.2
    refine .of_link ?_ fun _ ↦ rfl
    rw [render_call, leftChains]
    exact reads_call h.1 hargs
  | unsupported e => exact h.elim

theorem readsAll (ts : List Filter) (h : PlainAll ts) :
    List.Forall₂ (Reads 0) (ts.map render) (leftChainsAll ts) := by
  cases ts with
  | nil => exact .nil
  | cons t ts => exact .cons ((readsBack t h.1).reads.mono (Nat.zero_le _)) (readsAll ts h.2)

end

/-- The association of chains cannot be seen in a text. -/
theorem SameChains.strength_render_eq {t t' : Filter} (h : SameChains t t') :
    t.strength = t'.strength ∧ t.render = t'.render := by
  induction h with
  | refl t => exact ⟨rfl, rfl⟩
  | symm _ ih => exact ⟨ih.1.symm, ih.2.symm⟩
  | trans _ _ ih ih' => exact ⟨ih.1.trans ih'.1, ih.2.trans ih'.2⟩
  | assoc op a b c =>
    simp only [strength_logical, render_logical, guarded, Nat.lt_irrefl, if_false,
      String.append_assoc, and_self]
  | @unary op e e' _ ih =>
    exact ⟨strength_unary_congr op e e',
      by rw [render_unary, render_unary, strength_unary_congr op e e', ih.1, ih.2]⟩
  | binary op _ _ ihl ihr => exact ⟨rfl, by simp only [render_binary, ihl, ihr]⟩
  | @logical op l l' r r' _ _ ihl ihr =>
    exact ⟨strength_logical_congr op l r l' r',
      by simp only [render_logical, strength_logical, ihl, ihr]⟩
  | isNull negated _ ih => exact ⟨rfl, by simp only [render_isNull, ih]⟩
  | inList negated items _ ih => exact ⟨rfl, by simp only [render_inList, ih]⟩
  | item negated e front back _ ih =>
    exact ⟨rfl, by simp only [render_inList, List.map_append, List.map_cons, ih]⟩
  | between negated _ _ _ ih ihl ihh => exact ⟨rfl, by simp only [render_between, ih, ihl, ihh]⟩
  | like negated ignoreCase _ _ ih ihp => exact ⟨rfl, by simp only [render_like, ih, ihp]⟩
  | cast type _ ih => exact ⟨rfl, by simp only [render_cast, ih]⟩
  | argument name front back _ ih =>
    exact ⟨rfl, by simp only [render_call, List.map_append, List.map_cons, ih]⟩

/-- Two filters of plain words have the same text exactly if they are the same up to the
association of their chains. -/
theorem render_eq_render_iff {t t' : Filter} (h : t.Plain) (h' : t'.Plain) :
    t.render = t'.render ↔ SameChains t t' := by
  have hread : ∀ {t : Filter}, t.Plain →
      Settles (readAt · 0 (t.render.toList ++ [])) (t.leftChains, []) := by
    intro t h
    exact (readsBack t h).reads.settles (Nat.zero_le _) (by simp [Breaks])
      (below_of_read?_eq_none rfl 0)
  constructor
  · intro heq
    have hsame := (heq ▸ hread h).unique (hread h')
    exact sameChains_iff.2 (Prod.mk.inj hsame).1
  · exact fun hsame ↦ hsame.strength_render_eq.2

/-- A conjunction in two associations and one with a disjunction in parentheses. -/
theorem texts_of_three_conjunctions :
    let a : Filter := binary .eq (column (.plain "a")) (value (.string "it's"))
    let b : Filter := like (column (.plain "b")) (value (.string "x%")) true false
    let c : Filter := column (.plain "c")
    let t : Filter := logical .and a (logical .and b c)
    let t' : Filter := logical .and (logical .and a b) c
    let u : Filter := logical .and a (logical .or b c)
    t.Plain ∧ t'.Plain ∧ u.Plain ∧ t.render = "a = 'it''s' AND b NOT LIKE 'x%' AND c" ∧
      u.render = "a = 'it''s' AND (b NOT LIKE 'x%' OR c)" ∧ SameChains t t' ∧
      ¬ SameChains t u := by
  intro a b c t t' u
  have hname : IsName "a" ∧ IsName "b" ∧ IsName "c" := by decide
  have ha : a.Plain := ⟨⟨hname.1, rfl⟩, trivial⟩
  have hb : b.Plain := ⟨⟨hname.2.1, rfl⟩, trivial⟩
  have hc : c.Plain := ⟨hname.2.2, rfl⟩
  have ht : t.Plain := ⟨ha, hb, hc⟩
  have ht' : t'.Plain := ⟨⟨ha, hb⟩, hc⟩
  have hu : u.Plain := ⟨ha, hb, hc⟩
  refine ⟨ht, ht', hu, by decide +kernel, by decide +kernel, ?_, fun hsame ↦ ?_⟩
  · exact (render_eq_render_iff ht ht').1 (by decide +kernel)
  · exact absurd ((render_eq_render_iff ht hu).2 hsame) (by decide +kernel)

end Filter

end Funnel
