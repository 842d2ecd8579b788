import Funnel.Proofs.Spelling

/-!
# A Reader for Filters

The texts of filters have a reader of their own, which groups by the same strengths as the writer.
It is not the parser of filters: it knows nothing but these texts.  What stands behind an operand is
a separator (`Separator`): an operator or the words of a test.  The reader climbs through the
separators that are strong enough for its place.

Each step of the reader goes down by one in a number of steps that is given to it.  Where it
comes to an end it does so for all numbers that are large enough (`Settles`), so the numbers need
not be counted.
-/

namespace Funnel

namespace Filter

/-! ## Separators -/

/-- What stands behind an operand of a filter, if the filter goes on there. -/
inductive Separator
  | operator (op : Sql.Infix)
  | isNull (negated : Bool)
  | inList (negated : Bool)
  | between (negated : Bool)
  | like (negated ignoreCase : Bool)
deriving DecidableEq

namespace Separator

def text : Separator → String
  | operator op => " " ++ op.text ++ " "
  | isNull negated => " IS " ++ Sql.negation negated ++ "NULL"
  | inList negated => testWord negated "IN" ++ "("
  | between negated => testWord negated "BETWEEN"
  | like negated ignoreCase => testWord negated (Sql.likeWord ignoreCase)

/-- How tightly the filter holds together that the separator belongs to. -/
def strength : Separator → Nat
  | operator op => leftLeast op
  | _ => 4

def all : List Separator :=
  [.eq, .notEq, .lt, .ltEq, .gt, .gtEq, .plus, .minus, .multiply, .divide, .modulo,
      .concat].map (fun op ↦ operator (.binary op)) ++
    [.and, .or].map (fun op ↦ operator (.logical op)) ++
    [false, true].flatMap fun negated ↦
      [isNull negated, inList negated, between negated, like negated false, like negated true]

/-- The separator at the front of a text, and what is behind it. -/
def read? (cs : List Char) : Option (Separator × List Char) :=
  all.findSome? fun sep ↦
    if sep.text.toList.isPrefixOf cs then some (sep, cs.drop sep.text.toList.length) else none

/-- No separator is the beginning of another one. -/
theorem read?_append (sep : Separator) (cs : List Char) :
    read? (sep.text.toList ++ cs) = some (sep, cs) := by
  cases sep with
  | operator op => rcases op with op | op <;> cases op <;> rfl
  | like negated ignoreCase => cases negated <;> cases ignoreCase <;> rfl
  | isNull negated | inList negated | between negated => cases negated <;> rfl

end Separator

/-! ## Reading -/

/-- A character of a name or a number: none of those that begin or end something else. -/
def isPlain (c : Char) : Bool := !([' ', '(', ')', ',', '\x27', '+', '-'].contains c)

/-- What an operand is if a word is all there is of it. -/
def ofWord (word : String) : Filter :=
  if word = "NULL" then value .null
  else if word = "true" then value (.boolean true)
  else if word = "false" then value (.boolean false)
  else if (word.toList.head?.map Char.isDigit).getD false then value (.number word)
  else column (.plain word)

/-- Two filters with an operator between them. -/
def joinedBy : Sql.Infix → Filter → Filter → Filter
  | .binary op => binary op
  | .logical op => logical op

/-- What is behind a text that has to come next. -/
def skip (text : String) (cs : List Char) : Option (List Char) :=
  if text.toList.isPrefixOf cs then some (cs.drop text.toList.length) else none

theorem skip_append (text : String) (cs : List Char) :
    skip text (text.toList ++ cs) = some cs := by
  rw [skip, if_pos (List.isPrefixOf_iff_prefix.2 (List.prefix_append _ _)), List.drop_left]

/-- Goes on behind a filter in parentheses. -/
def closed : Filter × List Char → Option (Filter × List Char)
  | (e, cs) => (skip ")" cs).map fun rest ↦ (e, rest)

section Reader

-- A reader of filters of a least strength, and one of the filters up to a parenthesis: both give
-- what is left of the text.
variable (read : Nat → List Char → Option (Filter × List Char))
  (readItems : List Char → Option (List Filter × List Char))

/-- Reads what begins with a word. -/
def readWord (word : String) (cs : List Char) : Option (Filter × List Char) :=
  if word = "NOT" then
    (skip " " cs).bind fun rest ↦ (read 3 rest).map (Prod.map (unary .not) id)
  else
    match skip "(" cs with
    | none => some (ofWord word, cs)
    | some rest =>
      if word = "cast" then
        (read 0 rest).bind fun (e, rest') ↦ (skip " AS " rest').bind fun rest' ↦
          (skip ")" (rest'.dropWhile isPlain)).map fun rest'' ↦
            (cast e (String.ofList (rest'.takeWhile isPlain)), rest'')
      else (readItems rest).map (Prod.map (call word) id)

/-- Reads an operand. -/
def readOperand : List Char → Option (Filter × List Char)
  | '(' :: cs => (read 0 cs).bind closed
  | '-' :: cs => (read 8 cs).map (Prod.map (unary .minus) id)
  | '+' :: cs => (read 8 cs).map (Prod.map (unary .plus) id)
  | '\x27' :: cs =>
    (Text.Quoted.read '\x27' cs).map (Prod.map (fun text ↦ value (.string (String.ofList text))) id)
  | cs =>
    if cs.takeWhile isPlain = [] then none
    else readWord read readItems (String.ofList (cs.takeWhile isPlain)) (cs.dropWhile isPlain)

/-- Reads what belongs to a separator and puts it together with the operand in front of it. -/
def complete (left : Filter) : Separator → List Char → Option (Filter × List Char)
  | .operator op, cs =>
    (read (leftLeast op + 1) cs).map (Prod.map (joinedBy op left) id)
  | .isNull negated, cs => some (isNull left negated, cs)
  | .inList negated, cs => (readItems cs).map (Prod.map (inList left · negated) id)
  | .between negated, cs =>
    (read operandStrength cs).bind fun (low, rest) ↦ (skip " AND " rest).bind fun rest' ↦
      (read operandStrength rest').map (Prod.map (between left low · negated) id)
  | .like negated ignoreCase, cs =>
    (read operandStrength cs).map (Prod.map (like left · negated ignoreCase) id)

/-- Goes on behind one of several filters. -/
def afterItem (e : Filter) (cs : List Char) : Option (List Filter × List Char) :=
  match skip ")" cs with
  | some rest => some ([e], rest)
  | none => (skip ", " cs).bind fun rest ↦ (readItems rest).map (Prod.map (e :: ·) id)

end Reader

mutual

/-- Reads a filter that is at least this strong, as far as it goes. -/
def readAt : Nat → Nat → List Char → Option (Filter × List Char)
  | 0, _, _ => none
  | n + 1, least, cs =>
    (readOperand (readAt n) (readItems n) cs).bind fun (e, rest) ↦ readMore n least e rest

/-- Goes on behind a filter that has been read. -/
def readMore : Nat → Nat → Filter → List Char → Option (Filter × List Char)
  | 0, _, _, _ => none
  | n + 1, least, left, cs =>
    match Separator.read? cs with
    | none => some (left, cs)
    | some (sep, rest) =>
      if sep.strength < least then some (left, cs)
      else
        (complete (readAt n) (readItems n) left sep rest).bind fun (e, rest') ↦
          readMore n least e rest'

/-- Reads filters with commas between them, up to the parenthesis behind them. -/
def readItems : Nat → List Char → Option (List Filter × List Char)
  | 0, _ => none
  | n + 1, cs =>
    match readAt n 0 cs with
    | some (e, rest) => afterItem (readItems n) e rest
    | none => (skip ")" cs).map fun rest ↦ ([], rest)

end

/-! ## Steps -/

/-- With enough steps there is this result. -/
def Settles {α : Type} (F : Nat → Option α) (a : α) : Prop := ∃ N, ∀ n ≥ N, F n = some a

namespace Settles

variable {α β : Type} {F : Nat → Option α} {a : α} {b : β}

theorem of_forall (h : ∀ n, F n = some a) : Settles F a := ⟨0, fun n _ ↦ h n⟩

theorem of_succ {G : Nat → Option α} (h : ∀ n, F (n + 1) = G n) (hG : Settles G a) :
    Settles F a := by
  obtain ⟨N, hN⟩ := hG
  refine ⟨N + 1, fun n hn ↦ ?_⟩
  obtain ⟨m, rfl⟩ : ∃ m, n = m + 1 := ⟨n - 1, by omega⟩
  rw [h m, hN m (by omega)]

theorem bind {G : Nat → α → Option β} (hF : Settles F a) (hG : Settles (G · a) b) :
    Settles (fun n ↦ (F n).bind (G n)) b := by
  obtain ⟨N, hN⟩ := hF
  obtain ⟨M, hM⟩ := hG
  refine ⟨max N M, fun n hn ↦ ?_⟩
  simp only [hN n (by omega), Option.bind_some]
  exact hM n (by omega)

theorem map (hF : Settles F a) (g : α → β) : Settles (fun n ↦ (F n).map g) (g a) := by
  obtain ⟨N, hN⟩ := hF
  exact ⟨N, fun n hn ↦ by simp only [hN n hn, Option.map_some]⟩

theorem unique {a' : α} (h : Settles F a) (h' : Settles F a') : a = a' := by
  obtain ⟨N, hN⟩ := h
  obtain ⟨M, hM⟩ := h'
  have hsame := (hN (max N M) (by omega)).symm.trans (hM (max N M) (by omega))
  exact Option.some.inj hsame

end Settles

/-! ## What stands behind a filter -/

/-- A separator at the front of the text belongs to a weaker filter. -/
def Below (least : Nat) (rest : List Char) : Prop :=
  ∀ sep rest', Separator.read? rest = some (sep, rest') → sep.strength < least

theorem below_of_read?_eq_none {rest : List Char} (h : Separator.read? rest = none) (least : Nat) :
    Below least rest := by
  intro sep rest' hread
  simp [h] at hread

theorem Below.mono {least least' : Nat} {rest : List Char} (h : Below least rest)
    (hle : least ≤ least') : Below least' rest :=
  fun sep rest' hread ↦ (h sep rest' hread).trans_le hle

theorem below_append (sep : Separator) {least : Nat} (h : sep.strength < least)
    (rest : List Char) : Below least (sep.text.toList ++ rest) := by
  intro sep' rest' hread
  rw [Separator.read?_append] at hread
  obtain ⟨rfl, -⟩ := Prod.mk.inj (Option.some.inj hread)
  exact h

theorem Separator.exists_text (sep : Separator) : ∃ cs, sep.text.toList = ' ' :: cs := by
  cases sep with
  | operator op => rcases op with op | op <;> cases op <;> exact ⟨_, rfl⟩
  | like negated ignoreCase => cases negated <;> cases ignoreCase <;> exact ⟨_, rfl⟩
  | isNull negated | inList negated | between negated => cases negated <;> exact ⟨_, rfl⟩

theorem breaks_separator (sep : Separator) (rest : List Char) :
    Breaks (sep.text.toList ++ rest) := by
  obtain ⟨cs, hcs⟩ := sep.exists_text
  rw [hcs]
  exact .cons (by decide)

theorem readMore_of_below {least : Nat} {rest : List Char} (h : Below least rest) (n : Nat)
    (e : Filter) : readMore (n + 1) least e rest = some (e, rest) := by
  rw [readMore]
  split
  · rfl
  next sep rest' hread => rw [if_pos (h sep rest' hread)]

/-- A separator that is strong enough belongs to the filter in front of it. -/
theorem settles_readMore (sep : Separator) {least : Nat} {left e : Filter} {cs rest : List Char}
    {result : Filter × List Char} (hle : least ≤ sep.strength)
    (hcomplete : Settles (fun n ↦ complete (readAt n) (readItems n) left sep cs) (e, rest))
    (hrest : Settles (readMore · least e rest) result) :
    Settles (readMore · least left (sep.text.toList ++ cs)) result := by
  have hnext := Settles.bind (G := fun n (e, rest) ↦ readMore n least e rest) hcomplete hrest
  refine Settles.of_succ (fun n ↦ ?_) hnext
  rw [readMore, Separator.read?_append]
  exact if_neg (Nat.not_lt.2 hle)

/-! ## Reading a text -/

/-- At the front of a text, where it may be expected and ends, the filter is read, and the reader
goes on behind it. -/
def Reads (strength : Nat) (text : String) (e : Filter) : Prop :=
  ∀ least ≤ strength, ∀ rest, Breaks rest → Below (strength + 1) rest →
    ∀ result, Settles (readMore · least e rest) result →
      Settles (readAt · least (text.toList ++ rest)) result

namespace Reads

variable {strength least : Nat} {text tail : String} {e left : Filter} {rest : List Char}

theorem mono (h : Reads strength text e) (hle : least ≤ strength) : Reads least text e :=
  fun p hp rest hbreaks hbelow ↦ h p (hp.trans hle) rest hbreaks (hbelow.mono (by omega))

/-- Where no stronger separator follows, the reader stops behind the text. -/
theorem settles (h : Reads strength text e) (hle : least ≤ strength) (hbreaks : Breaks rest)
    (hbelow : Below least rest) :
    Settles (readAt · least (text.toList ++ rest)) (e, rest) := by
  refine h least hle rest hbreaks (hbelow.mono (by omega)) (e, rest) ?_
  exact Settles.of_succ (fun n ↦ readMore_of_below hbelow n e) (.of_forall fun _ ↦ rfl)

theorem of_operand (h : ∀ rest, Breaks rest → Below (strength + 1) rest →
      Settles (fun n ↦ readOperand (readAt n) (readItems n) (text.toList ++ rest)) (e, rest)) :
    Reads strength text e := by
  intro least _ rest hbreaks hbelow result hresult
  exact Settles.of_succ (fun n ↦ by rw [readAt]) ((h rest hbreaks hbelow).bind hresult)

/-- A filter that goes on behind its first operand. -/
theorem extend (sep : Separator) (hleft : Reads sep.strength text left)
    (h : ∀ rest, Breaks rest → Below (sep.strength + 1) rest →
      Settles (fun n ↦ complete (readAt n) (readItems n) left sep (tail.toList ++ rest))
        (e, rest)) :
    Reads sep.strength (text ++ sep.text ++ tail) e := by
  intro least hle rest hbreaks hbelow result hresult
  rw [String.toList_append, String.toList_append, List.append_assoc, List.append_assoc]
  refine hleft least hle _ (breaks_separator sep _) (below_append sep (Nat.lt_succ_self _) _)
    result ?_
  exact settles_readMore sep hle (h rest hbreaks hbelow) hresult

end Reads

end Filter

end Funnel
