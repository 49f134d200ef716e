import Mathlib
import Backtest.Text.Json.Read
/-!
# Proofs.Text.Json — string literals and objects of strings read back

`quote` escapes the quote, the backslash and every control character, the common ones by their
short escapes and the others as `\u00XX`; `read?` undoes each escape and takes every other
character as it stands. `pretty` writes an object one member a line, indented by two blanks,
and the reader skips those blanks. So an object whose members hold strings reads back as itself,
whatever its keys and values, repeated or unordered keys included.

* `readStringChars_escapeChar` — one escaped character read back, the reader going on after it;
* `readStringBody_escaped`, `readValue_quote` — a string literal reads back as its string;
* `readMembers_member_comma`, `readMembers_member_close` — one member `"k": "v"` and what
  follows it;
* `readMembers_strings` — the members of an object of strings, as `pretty` writes them;
* `read?_pretty_strings` — an object of strings reads back as itself.
-/
namespace Backtest
namespace Json

/-! ## String literals -/

theorem hexValue_hexDigit : ∀ n < 16, hexValue (hexDigit n) = some n := by
  decide

/-- A control character written as `\u00XX` reads back as itself. -/
theorem readUnicodeEscape_control {c : Char} (h : c.toNat < 32) (tail : List Char) :
    readUnicodeEscape ('0' :: '0' :: hexDigit (c.toNat / 16) :: hexDigit (c.toNat % 16) :: tail) =
      some (c, tail) := by
  have hhi := hexValue_hexDigit (c.toNat / 16) (by omega)
  have hlo := hexValue_hexDigit (c.toNat % 16) (by omega)
  have hzero : hexValue '0' = some 0 := by decide
  simp only [readUnicodeEscape, readHex4, hzero, hhi, hlo, Option.bind_eq_bind, Option.bind_some]
  rw [show ((0 * 16 + 0) * 16 + c.toNat / 16) * 16 + c.toNat % 16 = c.toNat by omega]
  simp only [Option.pure_def, Option.bind_some]
  rw [if_neg (by omega), if_neg (by omega), Char.ofNat_toNat]

/-- One escaped character is read back, and the reader goes on after it. -/
theorem readStringChars_escapeChar (c : Char) (fuel : Nat) (tail acc : List Char) :
    readStringChars (fuel + 1) (escapeChar c ++ tail) acc = readStringChars fuel tail (c :: acc) := by
  unfold escapeChar
  split_ifs with h1 h2 h3 h4 h5 h6 h7 h8
  · subst h1; rfl
  · subst h2; rfl
  · subst h3; rfl
  · subst h4; rfl
  · subst h5; rfl
  · obtain rfl : c = Char.ofNat 8 := by rw [← h6, Char.ofNat_toNat]
    rfl
  · obtain rfl : c = Char.ofNat 12 := by rw [← h7, Char.ofNat_toNat]
    rfl
  · simp only [List.cons_append, List.nil_append]
    rw [readStringChars, readUnicodeEscape_control h8]
  · simp only [List.cons_append, List.nil_append]
    -- any other character stands for itself
    rw [readStringChars, if_neg h8]
    · exact h1
    · exact h2

theorem escapeChar_ne_nil (c : Char) : escapeChar c ≠ [] := by
  unfold escapeChar
  split_ifs <;> simp

/-- The escaped characters of a list, then the closing quote, read back as the list. -/
theorem readStringChars_escaped (cs : List Char) {fuel : Nat} (h : cs.length < fuel)
    (acc rest : List Char) :
    readStringChars fuel (cs.flatMap escapeChar ++ '"' :: rest) acc =
      some (String.ofList (acc.reverse ++ cs), rest) := by
  induction cs generalizing fuel acc with
  | nil =>
    obtain ⟨f, rfl⟩ : ∃ f, fuel = f + 1 := ⟨fuel - 1, by simp at h; omega⟩
    rw [List.flatMap_nil, List.nil_append, readStringChars, List.append_nil]
  | cons c cs ih =>
    obtain ⟨f, rfl⟩ : ∃ f, fuel = f + 1 := ⟨fuel - 1, by simp at h; omega⟩
    rw [List.flatMap_cons, List.append_assoc, readStringChars_escapeChar,
      ih (by simp at h; omega), List.reverse_cons, List.append_assoc, List.singleton_append]

theorem length_le_flatMap_escapeChar (cs : List Char) :
    cs.length ≤ (cs.flatMap escapeChar).length := by
  induction cs with
  | nil => simp
  | cons c cs ih =>
    have := List.length_pos_of_ne_nil (escapeChar_ne_nil c)
    simp only [List.flatMap_cons, List.length_append, List.length_cons]
    omega

theorem toList_quote (s : String) :
    (quote s).toList = '"' :: (s.toList.flatMap escapeChar ++ ['"']) := by
  simp [quote]

/-- The body of a string literal reads back as the string, up to and past its closing quote. -/
theorem readStringBody_escaped (s : String) (rest : List Char) :
    readStringBody (s.toList.flatMap escapeChar ++ '"' :: rest) = some (s, rest) := by
  have hlen := length_le_flatMap_escapeChar s.toList
  rw [readStringBody, readStringChars_escaped s.toList
    (by rw [List.length_append, List.length_cons]; omega)]
  simp

/-! ## Blanks -/

@[simp] theorem skipBlanks_space (cs : List Char) : skipBlanks (' ' :: cs) = skipBlanks cs := by
  simp [skipBlanks]

@[simp] theorem skipBlanks_newline (cs : List Char) : skipBlanks ('\n' :: cs) = skipBlanks cs := by
  simp [skipBlanks]

/-- Blanks end at a character that is none. -/
theorem skipBlanks_cons {c : Char} (h : ¬ (c = ' ' ∨ c = '\t' ∨ c = '\n' ∨ c = '\r'))
    (cs : List Char) : skipBlanks (c :: cs) = c :: cs := by
  rw [skipBlanks, if_neg h]

/-! ## Values -/

theorem prettyAt_str (d : Nat) (s : String) : prettyAt d (.str s) = quote s := by
  simp [prettyAt, compact]

/-- A string literal reads back as the string. -/
theorem readValue_quote (s : String) (fuel : Nat) (rest : List Char) :
    readValue (fuel + 1) ((quote s).toList ++ rest) = some (.str s, rest) := by
  rw [toList_quote, List.cons_append, List.append_assoc, List.singleton_append, readValue,
    skipBlanks_cons (by decide)]
  simp [readStringBody_escaped]

theorem skipBlanks_skipBlanks (cs : List Char) : skipBlanks (skipBlanks cs) = skipBlanks cs := by
  induction cs with
  | nil => rfl
  | cons c cs ih =>
    by_cases h : c = ' ' ∨ c = '\t' ∨ c = '\n' ∨ c = '\r'
    · rw [skipBlanks, if_pos h, ih]
    · rw [skipBlanks, if_neg h, skipBlanks, if_neg h]

/-- Readers start by skipping blanks, so blanks before their input change nothing. -/
theorem readValue_skipBlanks (fuel : Nat) (cs : List Char) :
    readValue fuel (skipBlanks cs) = readValue fuel cs := by
  cases fuel with
  | zero => rw [readValue, readValue]
  | succ f => rw [readValue, readValue, skipBlanks_skipBlanks]

theorem readMembers_skipBlanks (fuel : Nat) (cs : List Char) (acc : List (String × Json)) :
    readMembers fuel (skipBlanks cs) acc = readMembers fuel cs acc := by
  cases fuel with
  | zero => rw [readMembers, readMembers]
  | succ f => rw [readMembers, readMembers, skipBlanks_skipBlanks]

/-! ## Objects of strings -/

theorem toList_prettyMembers_single (k v : String) :
    (prettyMembers 1 [(k, .str v)]).toList =
      ' ' :: ' ' :: ((quote k).toList ++ ':' :: ' ' :: (quote v).toList) := by
  simp [prettyMembers, indent, prettyAt_str]

theorem toList_prettyMembers_cons (k v : String) (m : String × Json) (ms : List (String × Json)) :
    (prettyMembers 1 ((k, .str v) :: m :: ms)).toList =
      ' ' :: ' ' :: ((quote k).toList ++ ':' :: ' ' :: ((quote v).toList ++
        ',' :: '\n' :: (prettyMembers 1 (m :: ms)).toList)) := by
  simp [prettyMembers, indent, prettyAt_str]

/-- The value of a member: after the colon, a blank and a string literal. -/
theorem readValue_space_quote (v : String) (fuel : Nat) (rest : List Char) :
    readValue (fuel + 1) (' ' :: ((quote v).toList ++ rest)) = some (.str v, rest) := by
  rw [← readValue_skipBlanks, skipBlanks_space, readValue_skipBlanks, readValue_quote]

section Member

variable (k v : String) {fuel : Nat} {acc : List (String × Json)} {rest t : List Char}

/-- A member `"k": "v"` followed by a comma: the reader takes it and reads on after the comma. -/
theorem readMembers_member_comma (h : skipBlanks rest = ',' :: t) :
    readMembers (fuel + 2) ((quote k).toList ++ ':' :: ' ' :: ((quote v).toList ++ rest)) acc =
      readMembers (fuel + 1) t ((k, .str v) :: acc) := by
  rw [readMembers, toList_quote, List.cons_append, skipBlanks_cons (by decide), List.append_assoc,
    List.singleton_append]
  simp only [readStringBody_escaped, skipBlanks_cons (show ¬ (':' = ' ' ∨ ':' = '\t' ∨
    ':' = '\n' ∨ ':' = '\r') by decide), readValue_space_quote, h]

/-- A member `"k": "v"` followed by the closing brace: the reader ends with the members read. -/
theorem readMembers_member_close (h : skipBlanks rest = '}' :: t) :
    readMembers (fuel + 2) ((quote k).toList ++ ':' :: ' ' :: ((quote v).toList ++ rest)) acc =
      some (((k, .str v) :: acc).reverse, t) := by
  rw [readMembers, toList_quote, List.cons_append, skipBlanks_cons (by decide), List.append_assoc,
    List.singleton_append]
  simp only [readStringBody_escaped, skipBlanks_cons (show ¬ (':' = ' ' ∨ ':' = '\t' ∨
    ':' = '\n' ∨ ':' = '\r') by decide), readValue_space_quote, h]

end Member

/-- The members of an object of strings, one per line as `pretty` writes them, read back up to
the closing brace on the line after them. -/
theorem readMembers_strings (ms : List (String × String)) (hne : ms ≠ []) {fuel : Nat}
    (hfuel : ms.length < fuel) (acc : List (String × Json)) (tail : List Char) :
    readMembers fuel ((prettyMembers 1 (ms.map fun m => (m.1, Json.str m.2))).toList ++
        '\n' :: '}' :: tail) acc =
      some (acc.reverse ++ ms.map (fun m => (m.1, Json.str m.2)), tail) := by
  induction ms generalizing fuel acc with
  | nil => exact absurd rfl hne
  | cons m ms ih =>
    obtain ⟨k, v⟩ := m
    obtain ⟨f, rfl⟩ : ∃ f, fuel = f + 2 := by
      cases ms with
      | nil => exact ⟨fuel - 2, by simp at hfuel; omega⟩
      | cons _ _ => exact ⟨fuel - 2, by simp at hfuel; omega⟩
    -- the indent before the member is skipped first
    rw [← readMembers_skipBlanks]
    cases ms with
    | nil =>
      have hclose : skipBlanks ('\n' :: '}' :: tail) = '}' :: tail := by
        rw [skipBlanks_newline, skipBlanks_cons (by decide)]
      simp only [List.map_cons, List.map_nil, toList_prettyMembers_single, List.cons_append,
        skipBlanks_space, List.append_assoc]
      rw [readMembers_skipBlanks, readMembers_member_close k v hclose]
      simp
    | cons m' ms' =>
      simp only [List.map_cons, toList_prettyMembers_cons, List.cons_append, skipBlanks_space,
        List.append_assoc]
      rw [readMembers_skipBlanks, readMembers_member_comma k v (skipBlanks_cons (by decide) _),
        ← readMembers_skipBlanks, skipBlanks_newline, readMembers_skipBlanks]
      have hrest := ih (List.cons_ne_nil _ _)
        (show (m' :: ms').length < f + 1 by simp at hfuel ⊢; omega) ((k, .str v) :: acc)
      simp only [List.map_cons] at hrest
      rw [hrest]
      simp

/-- An object that does not close at once: its members are read from past the blanks. -/
theorem readValue_object {fuel : Nat} {cs : List Char} (h : ∀ r, skipBlanks cs ≠ '}' :: r) :
    readValue (fuel + 1) ('{' :: cs) =
      (readMembers fuel (skipBlanks cs) []).map fun (ms, r) => (obj ms, r) := by
  rw [readValue, skipBlanks_cons (by decide)]
  -- the brace selects the object case; `h` rules out the empty object within it
  simp only

/-- Each member of an object of strings takes at least one character of its text. -/
theorem length_le_prettyMembers_strings (ms : List (String × String)) :
    ms.length ≤ (prettyMembers 1 (ms.map fun m => (m.1, Json.str m.2))).toList.length := by
  induction ms with
  | nil => simp
  | cons m ms ih =>
    obtain ⟨k, v⟩ := m
    cases ms with
    | nil => simp [toList_prettyMembers_single]
    | cons m' ms' =>
      simp only [List.map_cons] at ih ⊢
      rw [toList_prettyMembers_cons]
      simp only [List.length_cons, List.length_append] at ih ⊢
      omega

/-- An object of strings, as `pretty` writes it, reads back as itself. -/
theorem read?_pretty_strings (ms : List (String × String)) :
    read? (Json.obj (ms.map fun m => (m.1, Json.str m.2))).pretty =
      some (.obj (ms.map fun m => (m.1, Json.str m.2))) := by
  rcases ms with _ | ⟨m, ms⟩
  · rfl
  · -- a brace, a line break, the members, a line break and the closing brace
    have htext : (Json.obj ((m :: ms).map fun m => (m.1, Json.str m.2))).pretty.toList =
        '{' :: '\n' :: ((prettyMembers 1 ((m :: ms).map fun m => (m.1, Json.str m.2))).toList ++
          ['\n', '}']) := by
      simp [pretty, prettyAt, indent]
    -- past the line break and the indent stands the first key's quote
    have hstart : ∀ r, skipBlanks ('\n' :: ((prettyMembers 1
        ((m :: ms).map fun m => (m.1, Json.str m.2))).toList ++ ['\n', '}'])) ≠ '}' :: r := by
      cases ms <;>
        simp [toList_prettyMembers_single, toList_prettyMembers_cons, toList_quote,
          skipBlanks_cons]
    have hlen := length_le_prettyMembers_strings (m :: ms)
    unfold read?
    simp only [htext]
    rw [readValue_object hstart, skipBlanks_newline, readMembers_skipBlanks,
      readMembers_strings (m :: ms) (List.cons_ne_nil _ _)]
    · simp [skipBlanks]
    · simp only [List.length_cons, List.length_append] at hlen ⊢
      omega

end Json
end Backtest
