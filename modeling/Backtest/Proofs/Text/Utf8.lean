import Mathlib
import Backtest.Text.Utf8
/-!
# Proofs.Text.Utf8 — decoding reads back what encoding writes

`encodeUtf8` writes a text as Lean stores it: each character by `String.utf8EncodeChar`, one
byte below `0x80`, otherwise a lead byte with the high bits and one to three continuation bytes
of six bits each. A character is a scalar value, below `0x110000` and outside the surrogates,
so its bytes pass every check `decodeFrom` makes, the narrowed second-byte ranges included,
and reassemble into its code point.

* `encodeUtf8_eq_flatMap` — the bytes of a text are its characters' bytes in order;
* `decodeFrom_one`, …, `decodeFrom_four` — the decoder's branch for a character of each length;
* `decodeFrom_utf8EncodeChar` — one character's bytes decode to it, and the decoder goes on;
* `decodeUtf8_encodeUtf8` — decoding the bytes of a text gives the text back.
-/

namespace Backtest
namespace Text

/-! ## The bytes of a text -/

/-- The loop that lists an array's bytes: from index `i` on, after the reversed bytes `r`. -/
theorem byteArray_toList_loop (bs : ByteArray) (i : Nat) (r : List UInt8) :
    ByteArray.toList.loop bs i r = r.reverse ++ bs.data.toList.drop i := by
  fun_induction ByteArray.toList.loop bs i r with
  | case1 i r hi ih =>
    have hlen : i < bs.data.toList.length := by simpa using hi
    rw [ih, List.drop_eq_getElem_cons hlen]
    simp [ByteArray.get!, hi]
  | case2 i r hi =>
    rw [List.drop_eq_nil_of_le (by simpa using hi), List.append_nil]

theorem byteArray_toList (bs : ByteArray) : bs.toList = bs.data.toList := by
  simp [ByteArray.toList, byteArray_toList_loop]

theorem encodeUtf8_eq_flatMap (s : String) :
    encodeUtf8 s = s.toList.flatMap String.utf8EncodeChar := by
  rw [encodeUtf8, String.toUTF8_eq_toByteArray, ← String.utf8Encode_toList,
    byteArray_toList, List.utf8Encode, List.toList_data_toByteArray]

/-! ## One character's bytes through the decoder -/

section Branches

variable {i : Nat} {acc : List Char} {rest : List UInt8}

theorem decodeFrom_one {b : UInt8} (hb : b.toNat < 0x80) :
    decodeFrom i acc (b :: rest) = decodeFrom (i + 1) (Char.ofNat b.toNat :: acc) rest := by
  have h1 : b < 0x80 := by simp only [UInt8.lt_iff_toNat_lt, UInt8.reduceToNat]; exact hb
  rw [decodeFrom.eq_def]
  dsimp only
  simp only [h1, if_true]

/-- A continuation byte, in the decoder's terms. -/
theorem isContinuation_of_toNat {c : UInt8} (hc : 0x80 ≤ c.toNat ∧ c.toNat ≤ 0xBF) :
    isContinuation c = true := by
  simp only [isContinuation, Bool.and_eq_true, decide_eq_true_eq, UInt8.le_iff_toNat_le]
  exact hc

/-- A second byte that lies in the range its lead byte narrows to. -/
theorem fitsSecond_of_toNat {b c : UInt8} (hc : 0x80 ≤ c.toNat ∧ c.toNat ≤ 0xBF)
    (hE0 : b.toNat = 0xE0 → 0xA0 ≤ c.toNat) (hED : b.toNat = 0xED → c.toNat ≤ 0x9F)
    (hF0 : b.toNat = 0xF0 → 0x90 ≤ c.toNat) (hF4 : b.toNat = 0xF4 → c.toNat ≤ 0x8F) :
    fitsSecond b c = true := by
  simp only [fitsSecond, secondRange, Bool.and_eq_true, decide_eq_true_eq, UInt8.le_iff_toNat_le]
  split_ifs with h1 h2 h3 h4
  · subst h1
    exact ⟨hE0 rfl, hc.2⟩
  · subst h2
    exact ⟨hc.1, hED rfl⟩
  · subst h3
    exact ⟨hF0 rfl, hc.2⟩
  · subst h4
    exact ⟨hc.1, hF4 rfl⟩
  · exact hc

theorem decodeFrom_two {b c : UInt8} (hb : 0xC2 ≤ b.toNat ∧ b.toNat < 0xE0)
    (hc : isContinuation c = true) :
    decodeFrom i acc (b :: c :: rest) =
      decodeFrom (i + 2) (Char.ofNat ((b.toNat % 32) * 64 + low6 c) :: acc) rest := by
  have h1 : ¬ b < 0x80 := by simp only [UInt8.lt_iff_toNat_lt, UInt8.reduceToNat]; omega
  have h2 : (decide (b < 0xC2) || decide (b > 0xF4)) = false := by
    simp only [UInt8.lt_iff_toNat_lt, UInt8.reduceToNat, gt_iff_lt, Bool.or_eq_false_iff,
      decide_eq_false_iff_not]
    omega
  have h3 : b < 0xE0 := by simp only [UInt8.lt_iff_toNat_lt, UInt8.reduceToNat]; omega
  rw [decodeFrom.eq_def]
  dsimp only
  simp only [h1, h2, h3, hc, if_true, if_false, Bool.false_eq_true]

theorem decodeFrom_three {b c d : UInt8} (hb : 0xE0 ≤ b.toNat ∧ b.toNat < 0xF0)
    (hc : fitsSecond b c = true) (hd : isContinuation d = true) :
    decodeFrom i acc (b :: c :: d :: rest) =
      decodeFrom (i + 3) (Char.ofNat ((b.toNat % 16) * 4096 + low6 c * 64 + low6 d) :: acc)
        rest := by
  have h1 : ¬ b < 0x80 := by simp only [UInt8.lt_iff_toNat_lt, UInt8.reduceToNat]; omega
  have h2 : (decide (b < 0xC2) || decide (b > 0xF4)) = false := by
    simp only [UInt8.lt_iff_toNat_lt, UInt8.reduceToNat, gt_iff_lt, Bool.or_eq_false_iff,
      decide_eq_false_iff_not]
    omega
  have h3 : ¬ b < 0xE0 := by simp only [UInt8.lt_iff_toNat_lt, UInt8.reduceToNat]; omega
  have h4 : b < 0xF0 := by simp only [UInt8.lt_iff_toNat_lt, UInt8.reduceToNat]; omega
  rw [decodeFrom.eq_def]
  dsimp only
  simp only [h1, h2, h3, h4, hc, hd, if_true, if_false, Bool.false_eq_true]

theorem decodeFrom_four {b c d e : UInt8} (hb : 0xF0 ≤ b.toNat ∧ b.toNat ≤ 0xF4)
    (hc : fitsSecond b c = true) (hd : isContinuation d = true) (he : isContinuation e = true) :
    decodeFrom i acc (b :: c :: d :: e :: rest) =
      decodeFrom (i + 4) (Char.ofNat ((b.toNat % 8) * 262144 + low6 c * 4096 + low6 d * 64 +
        low6 e) :: acc) rest := by
  have h1 : ¬ b < 0x80 := by simp only [UInt8.lt_iff_toNat_lt, UInt8.reduceToNat]; omega
  have h2 : (decide (b < 0xC2) || decide (b > 0xF4)) = false := by
    simp only [UInt8.lt_iff_toNat_lt, UInt8.reduceToNat, gt_iff_lt, Bool.or_eq_false_iff,
      decide_eq_false_iff_not]
    omega
  have h3 : ¬ b < 0xE0 := by simp only [UInt8.lt_iff_toNat_lt, UInt8.reduceToNat]; omega
  have h4 : ¬ b < 0xF0 := by simp only [UInt8.lt_iff_toNat_lt, UInt8.reduceToNat]; omega
  rw [decodeFrom.eq_def]
  dsimp only
  simp only [h1, h2, h3, h4, hc, hd, he, if_true, if_false, Bool.false_eq_true]

end Branches

/-- One character's bytes decode to it, and the decoder goes on after them. -/
theorem decodeFrom_utf8EncodeChar (c : Char) (i : Nat) (acc : List Char) (rest : List UInt8) :
    decodeFrom i acc (String.utf8EncodeChar c ++ rest) =
      decodeFrom (i + (String.utf8EncodeChar c).length) (c :: acc) rest := by
  -- a scalar value lies below `0x110000` and outside the surrogates
  have hvalid : c.val.toNat < 0xD800 ∨ (0xDFFF < c.val.toNat ∧ c.val.toNat < 0x110000) := c.valid
  have hc : Char.ofNat c.val.toNat = c := Char.ofNat_toNat c
  simp only [String.utf8EncodeChar]
  generalize c.val.toNat = v at hvalid hc ⊢
  split_ifs with h1 h2 h3
  · -- one byte: the code point itself
    have hb := UInt8.toNat_ofNat_of_lt' (n := v) (show _ < 256 by omega)
    simp only [List.cons_append, List.nil_append, List.length_singleton]
    rw [decodeFrom_one (by omega), hb, hc]
  · -- two bytes: five high bits after `110`, six low bits after `10`
    have hb := UInt8.toNat_ofNat_of_lt' (n := v / 64 % 32 + 0xC0) (show _ < 256 by omega)
    have hd := UInt8.toNat_ofNat_of_lt' (n := v % 64 + 0x80) (show _ < 256 by omega)
    simp only [List.cons_append, List.nil_append, List.length_cons, List.length_nil]
    rw [decodeFrom_two (by omega) (isContinuation_of_toNat (by omega)), low6, hb, hd,
      show (v / 64 % 32 + 0xC0) % 32 * 64 + (v % 64 + 0x80) % 64 = v by omega, hc]
  · -- three bytes: four high bits after `1110`; the second byte rules out overlong forms and
    -- the surrogates
    have hb := UInt8.toNat_ofNat_of_lt' (n := v / 4096 % 16 + 0xE0) (show _ < 256 by omega)
    have hd := UInt8.toNat_ofNat_of_lt' (n := v / 64 % 64 + 0x80) (show _ < 256 by omega)
    have he := UInt8.toNat_ofNat_of_lt' (n := v % 64 + 0x80) (show _ < 256 by omega)
    simp only [List.cons_append, List.nil_append, List.length_cons, List.length_nil]
    rw [decodeFrom_three (by omega)
      (fitsSecond_of_toNat (by omega) (by omega) (by omega) (by omega) (by omega))
      (isContinuation_of_toNat (by omega)), low6, low6, hb, hd, he,
      show (v / 4096 % 16 + 0xE0) % 16 * 4096 + (v / 64 % 64 + 0x80) % 64 * 64 +
        (v % 64 + 0x80) % 64 = v by omega, hc]
  · -- four bytes: three high bits after `11110`; the second byte keeps the value below
    -- `0x110000`
    have hb := UInt8.toNat_ofNat_of_lt' (n := v / 262144 % 8 + 0xF0) (show _ < 256 by omega)
    have hd := UInt8.toNat_ofNat_of_lt' (n := v / 4096 % 64 + 0x80) (show _ < 256 by omega)
    have he := UInt8.toNat_ofNat_of_lt' (n := v / 64 % 64 + 0x80) (show _ < 256 by omega)
    have hf := UInt8.toNat_ofNat_of_lt' (n := v % 64 + 0x80) (show _ < 256 by omega)
    simp only [List.cons_append, List.nil_append, List.length_cons, List.length_nil]
    rw [decodeFrom_four (by omega)
      (fitsSecond_of_toNat (by omega) (by omega) (by omega) (by omega) (by omega))
      (isContinuation_of_toNat (by omega)) (isContinuation_of_toNat (by omega)),
      low6, low6, low6, hb, hd, he, hf,
      show (v / 262144 % 8 + 0xF0) % 8 * 262144 + (v / 4096 % 64 + 0x80) % 64 * 4096 +
        (v / 64 % 64 + 0x80) % 64 * 64 + (v % 64 + 0x80) % 64 = v by omega, hc]

/-- The bytes of a list of characters decode to them, after the characters already read. -/
theorem decodeFrom_flatMap (cs : List Char) (i : Nat) (acc : List Char) :
    decodeFrom i acc (cs.flatMap String.utf8EncodeChar) =
      .ok (String.ofList (acc.reverse ++ cs)) := by
  induction cs generalizing i acc with
  | nil =>
    rw [decodeFrom.eq_def]
    simp
  | cons c cs ih =>
    rw [List.flatMap_cons, decodeFrom_utf8EncodeChar, ih, List.reverse_cons, List.append_assoc,
      List.singleton_append]

/-- Decoding the bytes of a text gives the text back. -/
theorem decodeUtf8_encodeUtf8 (s : String) : decodeUtf8 (encodeUtf8 s) = .ok s := by
  rw [decodeUtf8, encodeUtf8_eq_flatMap, decodeFrom_flatMap, List.reverse_nil, List.nil_append,
    String.ofList_toList]

end Text
end Backtest
