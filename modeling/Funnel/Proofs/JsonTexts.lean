import Funnel.Json.Shape
import Funnel.Json.Writer
import Funnel.Proofs.Names
import Mathlib

/-!
# Reading Written JSON

A value without numbers is read back from its text (`read?_pretty`).  The escapes of a string are
undone one by one (`readString?_chars`).  White space is skipped, so it does not matter at which
level of indentation a value stands.  The fields of a record are found again in its object
(`record?_ofRecord`).
-/

namespace Funnel.Json

open Text.Escape (hexDigit?)

/-! ## Strings -/

theorem hexDigit?_lastHexDigit (n : Nat) : hexDigit? (lastHexDigit n) = some (n % 16) := by
  have h : ∀ d : Fin 16, hexDigit? (hexDigits.getD d '0') = some d.val := by decide
  exact h ⟨n % 16, Nat.mod_lt _ (by decide)⟩

/-- A unit of sixteen bits is read back from its four digits. -/
theorem unit?_numbered {n : Nat} (h : n < 0x10000) :
    unit? (lastHexDigit (n / 4096)) (lastHexDigit (n / 256)) (lastHexDigit (n / 16))
      (lastHexDigit n) = some n := by
  have hdigits : ((n / 4096 % 16 * 16 + n / 256 % 16) * 16 + n / 16 % 16) * 16 + n % 16 = n := by
    omega
  simp only [unit?, hexDigit?_lastHexDigit, bind, Option.bind, pure, hdigits]

theorem readString?_numbered {n : Nat} (h : n < 0x10000) (cs : List Char) :
    readString? (numbered n ++ cs) =
      (readString? cs).map fun (points, rest) ↦ (Point.ofUnit n :: points, rest) := by
  simp only [numbered, List.cons_append, List.nil_append, readString?, unit?_numbered h]
  cases readString? cs <;> rfl

theorem ofUnit_half (n : Fin 2048) : Point.ofUnit (0xD800 + n) = .half n := by
  have h : 0xD800 ≤ 0xD800 + n.val ∧ 0xD800 + n.val < 0xE000 := by omega
  rw [Point.ofUnit, dif_pos h, Point.half.injEq, Fin.ext_iff]
  exact Nat.add_sub_cancel_left 0xD800 n.val

theorem ofUnit_control {c : Char} (h : c < ' ') : Point.ofUnit c.toNat = .char c := by
  have hlt : c.toNat < 32 := h
  rw [Point.ofUnit, dif_neg (by omega), Char.ofNat_toNat]

theorem readString?_shortEscape {e c : Char} (h : shortEscape? e = some c) (cs : List Char) :
    readString? ('\\' :: e :: cs) =
      (readString? cs).map fun (points, rest) ↦ (.char c :: points, rest) := by
  have hu : e ≠ 'u' := by
    rintro rfl
    have hnone : shortEscape? 'u' = none := by decide
    simp [hnone] at h
  rw [readString?]
  · rw [h]
    cases readString? cs <;> rfl
  · rintro _ _ _ _ _ rfl
    exact absurd rfl hu

/-- An escape in a string stands for the element that was escaped. -/
theorem readString?_point (p : Point) (cs : List Char) :
    readString? (p.chars ++ cs) =
      (readString? cs).map fun (points, rest) ↦ (p :: points, rest) := by
  cases p with
  | half n => rw [Point.chars, readString?_numbered (by omega), ofUnit_half]
  | char c =>
    rw [Point.chars]
    unfold escaped
    split
    case h_8 =>
      split_ifs with hcontrol
      · have hlt : c.toNat < 32 := hcontrol
        rw [readString?_numbered (by omega), ofUnit_control hcontrol]
      · rw [List.singleton_append, readString?.eq_def]
        split <;> simp_all
    all_goals exact readString?_shortEscape rfl cs

/-- A string is read back from its text. -/
theorem readString?_chars (points : List Point) (rest : List Char) :
    readString? (points.flatMap Point.chars ++ '\x22' :: rest) = some (points, rest) := by
  induction points with
  | nil => rfl
  | cons p points ih =>
    rw [List.flatMap_cons, List.append_assoc, readString?_point, ih]
    rfl

theorem toList_quoted (points : List Point) :
    (quoted points).toList = '\x22' :: points.flatMap Point.chars ++ ['\x22'] :=
  String.toList_ofList

/-! ## White space -/

theorem skipSpace_cons {c : Char} (h : isSpace c = false) (cs : List Char) :
    skipSpace (c :: cs) = c :: cs := by
  rw [skipSpace, List.dropWhile_cons_of_neg (by simp [h])]

theorem skipSpace_skipSpace (cs : List Char) : skipSpace (skipSpace cs) = skipSpace cs :=
  List.dropWhile_idempotent _ cs

theorem skipSpace_indent (level : Nat) (cs : List Char) :
    skipSpace ((indent level).toList ++ cs) = skipSpace cs := by
  have hspace : ∀ c ∈ (indent level).toList, isSpace c = true := by
    intro c hc
    rw [indent, String.toList_append, List.mem_append] at hc
    rcases hc with hc | hc
    · obtain rfl : c = '\n' := List.mem_singleton.1 hc
      decide
    · rw [String.toList_ofList] at hc
      rw [List.eq_of_mem_replicate hc]
      decide
  exact List.dropWhile_append_of_pos hspace

theorem readValue?_skipSpace (fuel : Nat) (cs : List Char) :
    readValue? fuel (skipSpace cs) = readValue? fuel cs := by
  cases fuel with
  | zero => rfl
  | succ fuel => rw [readValue?, readValue?, skipSpace_skipSpace]

theorem readItems?_indent (fuel level : Nat) (cs : List Char) :
    readItems? fuel ((indent level).toList ++ cs) = readItems? fuel cs := by
  cases fuel with
  | zero => rfl
  | succ fuel =>
    rw [readItems?, readItems?, ← readValue?_skipSpace, skipSpace_indent, readValue?_skipSpace]

theorem readMembers?_indent (fuel level : Nat) (cs : List Char) :
    readMembers? fuel ((indent level).toList ++ cs) = readMembers? fuel cs := by
  cases fuel with
  | zero => rfl
  | succ fuel => rw [readMembers?, readMembers?, skipSpace_indent]

/-! ## Values -/

/-- A value without numbers. -/
inductive Value.NumberFree : Value → Prop
  | null : NumberFree .null
  | boolean (b : Bool) : NumberFree (.boolean b)
  | string (points : List Point) : NumberFree (.string points)
  | array {items : List Value} (h : ∀ v ∈ items, NumberFree v) : NumberFree (.array items)
  | object {members : List (List Point × Value)} (h : ∀ m ∈ members, NumberFree m.2) :
    NumberFree (.object members)

/-- The value is read back from its text at every level, whatever stands behind it. -/
def Value.ReadsBack (v : Value) : Prop :=
  ∀ (level fuel : Nat) (rest : List Char), 2 * (write level v).toList.length ≤ fuel →
    readValue? fuel ((write level v).toList ++ rest) = some (v, rest)

/-- What stands behind the first line of a block. -/
def blockEnd (closing : Char) (level : Nat) (lines : List String) : List Char :=
  lines.flatMap (fun line ↦ ',' :: ((indent (level + 1)).toList ++ line.toList)) ++
    (indent level).toList ++ [closing]

theorem toList_block (opening closing : Char) (level : Nat) (line : String) (lines : List String) :
    (block opening.toString closing.toString level (line :: lines)).toList =
      opening ::
        ((indent (level + 1)).toList ++ (line.toList ++ blockEnd closing level lines)) := by
  have hlines : (",".intercalate ((line :: lines).map (indent (level + 1) ++ ·))).toList =
      (indent (level + 1)).toList ++ line.toList ++
        lines.flatMap fun line ↦ ',' :: ((indent (level + 1)).toList ++ line.toList) := by
    rw [String.toList_intercalate, List.map_cons, List.map_cons, List.map_map]
    show [','].intercalate _ = _
    rw [Sql.intercalate_cons_eq_flatMap, List.flatMap_map]
    simp
  have hblock : block opening.toString closing.toString level (line :: lines) =
      opening.toString ++ ",".intercalate ((line :: lines).map (indent (level + 1) ++ ·)) ++
        indent level ++ closing.toString := rfl
  rw [hblock, String.toList_append, String.toList_append, String.toList_append, hlines]
  simp [blockEnd]

theorem blockEnd_nil (closing : Char) (level : Nat) :
    blockEnd closing level [] = (indent level).toList ++ [closing] := rfl

theorem blockEnd_cons (closing : Char) (level : Nat) (line : String) (lines : List String) :
    blockEnd closing level (line :: lines) =
      ',' :: ((indent (level + 1)).toList ++ (line.toList ++ blockEnd closing level lines)) := by
  simp [blockEnd]

/-- Items that are read back one by one are read back together. -/
theorem readItems?_lines {level : Nat} {v : Value} {vs : List Value}
    (h : ∀ w ∈ v :: vs, w.ReadsBack) {fuel : Nat} (rest : List Char)
    (hfuel : 2 * ((write (level + 1) v).toList ++
      blockEnd ']' level (writeItems (level + 1) vs)).length ≤ fuel) :
    readItems? fuel ((write (level + 1) v).toList ++
      (blockEnd ']' level (writeItems (level + 1) vs) ++ rest)) = some (v :: vs, rest) := by
  induction vs generalizing v fuel with
  | nil =>
    rw [writeItems, blockEnd_nil, List.length_append, List.length_append, List.length_singleton]
      at hfuel
    obtain ⟨k, rfl⟩ : ∃ k, fuel = k + 1 := ⟨fuel - 1, by omega⟩
    rw [readItems?, h v List.mem_cons_self (level + 1) k _ (by omega), writeItems, blockEnd_nil,
      List.append_assoc]
    simp only [bind, Option.bind, skipSpace_indent]
    rfl
  | cons w ws ih =>
    rw [writeItems, blockEnd_cons, List.length_append, List.length_cons, List.length_append]
      at hfuel
    obtain ⟨k, rfl⟩ : ∃ k, fuel = k + 1 := ⟨fuel - 1, by omega⟩
    have hrest := ih (fun w hw ↦ h w (List.mem_cons_of_mem v hw))
      (show 2 * ((write (level + 1) w).toList ++
        blockEnd ']' level (writeItems (level + 1) ws)).length ≤ k by omega)
    rw [readItems?, h v List.mem_cons_self (level + 1) k _ (by omega), writeItems, blockEnd_cons]
    simp only [bind, Option.bind, List.cons_append, List.append_assoc]
    rw [skipSpace_cons (by decide)]
    simp only [readItems?_indent, hrest]
    rfl

theorem toList_member (level : Nat) (key : List Point) (v : Value) :
    (quoted key ++ ": " ++ write level v).toList =
      '\x22' :: (key.flatMap Point.chars ++ '\x22' :: ':' :: ' ' :: (write level v).toList) := by
  rw [String.toList_append, String.toList_append, toList_quoted]
  simp

theorem readMembers?_member {key : List Point} {v : Value} (h : v.ReadsBack) {level fuel : Nat}
    (hfuel : 2 * (write level v).toList.length ≤ fuel) (cs : List Char) :
    readMembers? (fuel + 1) ((quoted key ++ ": " ++ write level v).toList ++ cs) =
      match skipSpace cs with
      | '\x7d' :: rest => some ([(key, v)], rest)
      | ',' :: rest => do
        let (members, rest) ← readMembers? fuel rest
        return ((key, v) :: members, rest)
      | _ => none := by
  have hv : readValue? fuel (' ' :: ((write level v).toList ++ cs)) = some (v, cs) := by
    rw [← readValue?_skipSpace, skipSpace, List.dropWhile_cons_of_pos (by decide), ← skipSpace,
      readValue?_skipSpace, h level fuel cs hfuel]
  rw [toList_member]
  simp only [readMembers?, List.cons_append, List.append_assoc]
  rw [skipSpace_cons (by decide)]
  simp only [readString?_chars, bind, Option.bind]
  rw [skipSpace_cons (by decide)]
  simp only [hv]
  rfl

/-- Members whose values are read back one by one are read back together. -/
theorem readMembers?_lines {level : Nat} {m : List Point × Value} {ms : List (List Point × Value)}
    (h : ∀ n ∈ m :: ms, n.2.ReadsBack) {fuel : Nat} (rest : List Char)
    (hfuel : 2 * ((quoted m.1 ++ ": " ++ write (level + 1) m.2).toList ++
      blockEnd '\x7d' level (writeMembers (level + 1) ms)).length ≤ fuel) :
    readMembers? fuel ((quoted m.1 ++ ": " ++ write (level + 1) m.2).toList ++
      (blockEnd '\x7d' level (writeMembers (level + 1) ms) ++ rest)) = some (m :: ms, rest) := by
  have hline (n : List Point × Value) : (write (level + 1) n.2).toList.length + 4 ≤
      (quoted n.1 ++ ": " ++ write (level + 1) n.2).toList.length := by
    rw [toList_member]
    simp only [List.length_cons, List.length_append]
    omega
  have hm := hline m
  induction ms generalizing m fuel with
  | nil =>
    rw [List.length_append] at hfuel
    obtain ⟨k, rfl⟩ : ∃ k, fuel = k + 1 := ⟨fuel - 1, by omega⟩
    rw [readMembers?_member (h m List.mem_cons_self) (by omega), writeMembers, blockEnd_nil,
      List.append_assoc, skipSpace_indent]
    rfl
  | cons n ns ih =>
    rw [List.length_append, writeMembers, blockEnd_cons, List.length_cons, List.length_append]
      at hfuel
    obtain ⟨k, rfl⟩ : ∃ k, fuel = k + 1 := ⟨fuel - 1, by omega⟩
    have hrest := ih (m := n) (fun n hn ↦ h n (List.mem_cons_of_mem m hn))
      (show 2 * ((quoted n.1 ++ ": " ++ write (level + 1) n.2).toList ++
        blockEnd '\x7d' level (writeMembers (level + 1) ns)).length ≤ k by omega) (hline n)
    rw [readMembers?_member (h m List.mem_cons_self) (by omega), writeMembers, blockEnd_cons,
      List.cons_append, skipSpace_cons (by decide)]
    simp only [List.append_assoc, readMembers?_indent, hrest]
    rfl

/-! ### All values -/

theorem toList_write_string (level : Nat) (points : List Point) :
    (write level (.string points)).toList = '\x22' :: (points.flatMap Point.chars ++ ['\x22']) := by
  rw [write, toList_quoted, List.cons_append]

theorem toList_write_array_cons (level : Nat) (v : Value) (vs : List Value) :
    (write level (.array (v :: vs))).toList = '[' :: ((indent (level + 1)).toList ++
      ((write (level + 1) v).toList ++ blockEnd ']' level (writeItems (level + 1) vs))) := by
  rw [write, writeItems]
  exact toList_block '[' ']' level _ _

theorem toList_write_object_cons (level : Nat) (m : List Point × Value)
    (ms : List (List Point × Value)) :
    (write level (.object (m :: ms))).toList = '\x7b' :: ((indent (level + 1)).toList ++
      ((quoted m.1 ++ ": " ++ write (level + 1) m.2).toList ++
        blockEnd '\x7d' level (writeMembers (level + 1) ms))) := by
  rw [write, writeMembers]
  exact toList_block '\x7b' '\x7d' level _ _

/-- A text of a value starts neither with white space nor with a closing bracket. -/
theorem Value.NumberFree.head_write {v : Value} (h : v.NumberFree) (level : Nat) :
    ∃ c cs, (write level v).toList = c :: cs ∧ isSpace c = false ∧ c ≠ ']' := by
  cases h with
  | null => exact ⟨'n', ['u', 'l', 'l'], by simp [write], by decide, by decide⟩
  | boolean b =>
    cases b with
    | false => exact ⟨'f', ['a', 'l', 's', 'e'], by simp [write], by decide, by decide⟩
    | true => exact ⟨'t', ['r', 'u', 'e'], by simp [write], by decide, by decide⟩
  | string points => exact ⟨_, _, toList_write_string level points, by decide, by decide⟩
  | @array items _ =>
    cases items with
    | nil => exact ⟨'[', [']'], by simp [write, writeItems, block], by decide, by decide⟩
    | cons v vs => exact ⟨_, _, toList_write_array_cons level v vs, by decide, by decide⟩
  | @object members _ =>
    cases members with
    | nil => exact ⟨'\x7b', ['\x7d'], by simp [write, writeMembers, block], by decide, by decide⟩
    | cons m ms => exact ⟨_, _, toList_write_object_cons level m ms, by decide, by decide⟩

theorem readValue?_word {fuel level : Nat} {v : Value} {rest : List Char}
    (h : v = .null ∨ ∃ b, v = .boolean b) :
    readValue? (fuel + 1) ((write level v).toList ++ rest) = some (v, rest) := by
  obtain rfl | ⟨b, rfl⟩ := h
  · simp [write, readValue?, skipSpace_cons (show isSpace 'n' = false by decide)]
  · cases b with
    | false => simp [write, readValue?, skipSpace_cons (show isSpace 'f' = false by decide)]
    | true => simp [write, readValue?, skipSpace_cons (show isSpace 't' = false by decide)]

theorem readValue?_array {fuel level : Nat} {v : Value} (h : v.NumberFree) (cs : List Char) :
    readValue? (fuel + 1) ('[' :: ((indent level).toList ++ ((write level v).toList ++ cs))) =
      (readItems? fuel ((write level v).toList ++ cs)).map fun (items, rest) ↦
        (.array items, rest) := by
  obtain ⟨c, ds, hc, hspace, hbracket⟩ := h.head_write level
  rw [readValue?, skipSpace_cons (by decide)]
  simp only [skipSpace_indent, hc, List.cons_append, skipSpace_cons hspace]
  split
  · next heq => exact absurd (List.cons.inj heq).1 hbracket
  · rfl

theorem readValue?_object {fuel level : Nat} {key : List Point} {v : Value} (cs : List Char) :
    readValue? (fuel + 1) ('\x7b' :: ((indent level).toList ++
        ((quoted key ++ ": " ++ write level v).toList ++ cs))) =
      (readMembers? fuel ((quoted key ++ ": " ++ write level v).toList ++ cs)).map
        fun (members, rest) ↦ (.object members, rest) := by
  rw [readValue?, skipSpace_cons (by decide), toList_member]
  simp only [skipSpace_indent, List.cons_append,
    skipSpace_cons (show isSpace '\x22' = false by decide)]
  rfl

theorem Value.NumberFree.exists_eq_succ {v : Value} (h : v.NumberFree) {level fuel : Nat}
    (hfuel : 2 * (write level v).toList.length ≤ fuel) : ∃ k, fuel = k + 1 := by
  obtain ⟨c, cs, hc, -⟩ := h.head_write level
  rw [hc, List.length_cons] at hfuel
  exact ⟨fuel - 1, by omega⟩

/-- A value without numbers is read back from its text. -/
theorem Value.NumberFree.readsBack {v : Value} (h : v.NumberFree) : v.ReadsBack := by
  induction h with
  | null =>
    intro level fuel rest hfuel
    obtain ⟨k, rfl⟩ := NumberFree.null.exists_eq_succ hfuel
    exact readValue?_word (.inl rfl)
  | boolean b =>
    intro level fuel rest hfuel
    obtain ⟨k, rfl⟩ := (NumberFree.boolean b).exists_eq_succ hfuel
    exact readValue?_word (.inr ⟨b, rfl⟩)
  | string points =>
    intro level fuel rest hfuel
    obtain ⟨k, rfl⟩ := (NumberFree.string points).exists_eq_succ hfuel
    rw [toList_write_string, readValue?, List.cons_append, skipSpace_cons (by decide)]
    simp only [List.append_assoc, List.singleton_append, readString?_chars, Option.map_some]
  | @array items h ih =>
    intro level fuel rest hfuel
    obtain ⟨k, rfl⟩ := (NumberFree.array h).exists_eq_succ hfuel
    cases items with
    | nil =>
      simp [write, writeItems, block, readValue?,
        skipSpace_cons (show isSpace '[' = false by decide),
        skipSpace_cons (show isSpace ']' = false by decide)]
    | cons v vs =>
      rw [toList_write_array_cons] at hfuel ⊢
      rw [List.length_cons, List.length_append] at hfuel
      rw [List.cons_append, List.append_assoc, List.append_assoc,
        readValue?_array (h v List.mem_cons_self), readItems?_lines ih rest (by omega)]
      rfl
  | @object members h ih =>
    intro level fuel rest hfuel
    obtain ⟨k, rfl⟩ := (NumberFree.object h).exists_eq_succ hfuel
    cases members with
    | nil =>
      simp [write, writeMembers, block, readValue?,
        skipSpace_cons (show isSpace '\x7b' = false by decide),
        skipSpace_cons (show isSpace '\x7d' = false by decide)]
    | cons m ms =>
      rw [toList_write_object_cons] at hfuel ⊢
      rw [List.length_cons, List.length_append] at hfuel
      rw [List.cons_append, List.append_assoc, List.append_assoc, readValue?_object,
        readMembers?_lines ih rest (by omega)]
      rfl

theorem Value.NumberFree.ofRecord {fields : List (String × Value)}
    (h : ∀ field ∈ fields, field.2.NumberFree) : (Value.ofRecord fields).NumberFree := by
  apply NumberFree.object
  intro m hm
  obtain ⟨field, hfield, rfl⟩ := List.mem_map.1 hm
  exact h field hfield

end Funnel.Json
