import Mathlib
import Backtest.Market.Quantile
import Backtest.Proofs.Decimal.Monotone
import Backtest.Proofs.Decimal.RoundTrip
/-!
# Nearest-rank quantiles

The quantile of a sample is the element at rank `⌊lerp(-0.5, n - 0.5, p)⌋` of the sample sorted
by the total order of doubles, held between the first and the last rank. This module is about
that rank. It is monotone in `p`, because every step that computes it keeps order: the float
arithmetic of `lerp` rounds to nearest, `floor` is the floor of the value, and the count a
double converts to is the floor of its value clamped at both ends. It is zero for every `p` at
most zero, and it reaches the last rank at `p = 1` while the count `n` is an exact double.

* `value_toFloat_whole`, `value_natToFloat_cases`, `value_floor` — whole doubles, the double a
  count converts to (exact up to `2^53`, at least one from one on), and the floor of a double;
* `rankAt_of_value` — the rank read from a double depends only on its value, monotonely;
* `value_lerp` — what the position `lerp(-0.5, c, p)` denotes, from what `p` denotes;
* `rankAt_lerp_of_nonpos`, `rankAt_lerp_mono` — for a count `c` above zero, a percentile at most
  zero reads rank zero and the rank grows with the percentile; a NaN appears only for an
  infinite count and a zero percentile, and reads rank zero too;
* `le_rankAt_lerp_of_one_le` — for `n ≤ 2^53` elements, a percentile from one on reads rank at
  least `n - 1`.
-/

namespace Backtest
namespace Quantile

open Decimal
open Decimal.Extended

/-! ## Whole doubles -/

/-- The value of a double lies in its own rounding interval. -/
theorem roundsTo_self {m : Nat} (hm : 0 < m) (q : Int) : RoundsTo m q (m * 2 ^ q) := by
  have hunit := two_zpow_pos (q - 2)
  have hq : (m : ℚ) * 2 ^ q = 4 * m * 2 ^ (q - 2) := by
    have h := two_zpow_add_eq q 0
    simp only [Nat.cast_zero, add_zero, zero_add] at h
    rw [h]
    ring
  have hlow : (lowerEnd m q : ℚ) ≤ 4 * m - 1 := by
    rw [lowerEnd_cast hm]
    split_ifs <;> linarith
  refine ⟨.inl ?_, .inl ?_⟩
  · rw [hq]
    exact mul_lt_mul_of_pos_right (by linarith) hunit
  · rw [hq]
    exact mul_lt_mul_of_pos_right (by linarith) hunit

/-- A whole number of at most 53 bits is a double: its significand is the number shifted up to
53 bits, or `2^52` for `2^53` itself. -/
theorem exists_canonical_whole {w : Nat} (hw : 0 < w) (hw' : w ≤ 2 ^ 53) :
    ∃ m q, Canonical m q ∧ (m : ℚ) * 2 ^ q = w := by
  rcases hw'.lt_or_eq with hlt | rfl
  · have hlog : Nat.log2 w < 53 := (Nat.log2_lt hw.ne').mpr hlt
    have hlo : 2 ^ Nat.log2 w ≤ w := Nat.log2_self_le hw.ne'
    have hhi : w < 2 ^ (Nat.log2 w + 1) := Nat.lt_log2_self
    refine ⟨w * 2 ^ (52 - Nat.log2 w), (Nat.log2 w : Int) - 52, ⟨?_, ?_, ?_, ?_, ?_⟩, ?_⟩
    · positivity
    · calc w * 2 ^ (52 - Nat.log2 w) < 2 ^ (Nat.log2 w + 1) * 2 ^ (52 - Nat.log2 w) :=
            Nat.mul_lt_mul_of_pos_right hhi (Nat.two_pow_pos _)
        _ = 2 ^ 53 := by rw [← Nat.pow_add]; congr 1; omega
    · simp only [minExponent]; omega
    · simp only [maxExponent]; omega
    · left
      calc 2 ^ 52 = 2 ^ Nat.log2 w * 2 ^ (52 - Nat.log2 w) := by rw [← Nat.pow_add]; congr 1; omega
        _ ≤ w * 2 ^ (52 - Nat.log2 w) := Nat.mul_le_mul_right _ hlo
    · push_cast
      rw [mul_assoc, ← zpow_natCast, ← zpow_add₀ two_ne_zero,
        show (((52 - Nat.log2 w : Nat) : Int)) + ((Nat.log2 w : Int) - 52) = 0 by omega,
        zpow_zero, mul_one]
  · refine ⟨2 ^ 52, 1, ⟨by norm_num, by norm_num, by simp [minExponent], by simp [maxExponent],
      .inl le_rfl⟩, ?_⟩
    norm_num

/-- A whole number of at most 53 bits reads as itself, with either sign. -/
theorem value_toFloat_whole (s : Bool) {w : Nat} (hw : w ≤ 2 ^ 53) :
    value (DecimalText.toFloat ⟨s, w, 0⟩) = some (ofRat (if s then -(w : ℚ) else w)) := by
  rcases Nat.eq_zero_or_pos w with rfl | hpos
  · -- zero is the bare sign bit
    have hbits : DecimalText.toFloat ⟨s, 0, 0⟩ = ofBitsNat (signBits s) := by
      unfold DecimalText.toFloat signBits
      cases s <;> rfl
    have hlt : signBits s < 2 ^ 64 := by unfold signBits; split_ifs <;> norm_num
    rw [hbits, value, classify_ofBitsNat hlt (by rw [classifyBits_signBits]; simp),
      classifyBits_signBits, value_finite]
    simp
  · obtain ⟨m, q, hc, hv⟩ := exists_canonical_whole hpos hw
    have hread := toFloat_of_roundsTo s (E := 0) hpos hc (by
      rw [zpow_zero, mul_one, ← hv]
      exact roundsTo_self hc.pos q)
    have hlt : packBits s m q < 2 ^ 64 := toNat_pack_finite s hc ▸ BitVec.isLt _
    rw [hread, value, classify_ofBitsNat hlt (by rw [classifyBits_packBits s hc]; simp),
      classifyBits_packBits s hc, value_finite, hv]

theorem value_natToFloat {n : Nat} (hn : n ≤ 2 ^ 53) : value (natToFloat n) = some (ofRat n) := by
  rw [natToFloat, value_toFloat_whole false hn]
  rfl

/-- A normal significand with an exponent from `-52` on is worth at least one. -/
theorem one_le_of_normal {m : Nat} {q : Int} (hm : 2 ^ 52 ≤ m) (hq : -52 ≤ q) :
    1 ≤ (m : ℚ) * 2 ^ q := by
  have hm' : (2 : ℚ) ^ (52 : Int) ≤ m := by exact_mod_cast hm
  calc (1 : ℚ) = 2 ^ (52 : Int) * 2 ^ (-52 : Int) := by norm_num
    _ ≤ m * 2 ^ q := by
      gcongr
      · norm_num

/-- Rounding a whole number from one on: the significand it is divided down to is normal. -/
theorem normal_le_scaled {n : Nat} (hn : 0 < n) :
    2 ^ 52 ≤ n * 2 ^ (-((Nat.log 2 n : Int) - 52)).toNat /
      (1 * 2 ^ ((Nat.log 2 n : Int) - 52).toNat) := by
  have hpow : 2 ^ Nat.log 2 n ≤ n := Nat.pow_log_le_self 2 hn.ne'
  rw [Nat.le_div_iff_mul_le (by positivity), one_mul]
  rcases le_or_gt 52 (Nat.log 2 n) with h | h
  · rw [show (-((Nat.log 2 n : Int) - 52)).toNat = 0 by omega,
      show ((Nat.log 2 n : Int) - 52).toNat = Nat.log 2 n - 52 by omega, pow_zero, mul_one,
      ← pow_add, show 52 + (Nat.log 2 n - 52) = Nat.log 2 n by omega]
    exact hpow
  · rw [show (-((Nat.log 2 n : Int) - 52)).toNat = 52 - Nat.log 2 n by omega,
      show ((Nat.log 2 n : Int) - 52).toNat = 0 by omega, pow_zero, mul_one]
    calc 2 ^ 52 = 2 ^ Nat.log 2 n * 2 ^ (52 - Nat.log 2 n) := by
          rw [← pow_add]; congr 1; omega
      _ ≤ n * 2 ^ (52 - Nat.log 2 n) := Nat.mul_le_mul_right _ hpow

/-- The double nearest a whole number from one on is the positive infinity or a normal double
with an exponent from `-52` on. -/
theorem nearestBits_whole {n : Nat} (hn : 0 < n) :
    nearestBits n 1 = infinityBits false ∨
      ∃ m q, Canonical m q ∧ 2 ^ 52 ≤ m ∧ -52 ≤ q ∧
        nearestBits n 1 = packBits false m q := by
  have hlog : floorLog2Ratio n 1 = Nat.log 2 n := by
    rw [floorLog2Ratio_eq hn one_pos, Nat.cast_one, div_one, Int.log_natCast]
  have he0 : max (floorLog2Ratio n 1 - 52) minExponent = (Nat.log 2 n : Int) - 52 := by
    rw [hlog, minExponent]
    omega
  have hlt := scaled_div_lt hn one_pos ((Nat.log 2 n : Int) - 52) (by rw [hlog])
  have hge := normal_le_scaled hn
  have hmin : (-52 : Int) ≤ (Nat.log 2 n : Int) - 52 := by omega
  unfold nearestBits
  rw [he0]
  simp only [Nat.pow_eq] at hlt ⊢
  generalize n * 2 ^ (-((Nat.log 2 n : Int) - 52)).toNat /
    (1 * 2 ^ ((Nat.log 2 n : Int) - 52).toNat) = q0 at hlt hge ⊢
  generalize n * 2 ^ (-((Nat.log 2 n : Int) - 52)).toNat %
    (1 * 2 ^ ((Nat.log 2 n : Int) - 52).toNat) = r
  generalize 1 * 2 ^ ((Nat.log 2 n : Int) - 52).toNat = den
  generalize (Nat.log 2 n : Int) - 52 = e0 at hmin ⊢
  -- rounding adds at most one to the significand
  obtain ⟨q1, hlo, hhi, hq1⟩ : ∃ q1, 2 ^ 52 ≤ q1 ∧ q1 ≤ 2 ^ 53 ∧
      (if 2 * r > den ∨ 2 * r = den ∧ q0 % 2 = 1 then q0 + 1 else q0) = q1 :=
    ⟨_, by split_ifs <;> omega, by split_ifs <;> omega, rfl⟩
  -- a carry to `2^53` moves to the next exponent
  obtain ⟨m, q, hm, hm', hq, hpair⟩ : ∃ m q, 2 ^ 52 ≤ m ∧ m < 2 ^ 53 ∧ -52 ≤ q ∧
      (if q1 = 2 ^ 53 then (2 ^ 52, e0 + 1) else (q1, e0)) = (m, q) := by
    by_cases hc : q1 = 2 ^ 53
    · exact ⟨2 ^ 52, e0 + 1, le_rfl, by norm_num, by omega, if_pos hc⟩
    · exact ⟨q1, e0, hlo, by omega, hmin, if_neg hc⟩
  simp only [hq1, hpair]
  by_cases hover : q > maxExponent
  · exact .inl (if_pos hover)
  · refine .inr ⟨m, q, ⟨by omega, hm', ?_, not_lt.mp hover, .inl hm⟩, hm, hq, if_neg hover⟩
    simp only [minExponent]
    omega

/-- A positive whole number reads as the positive infinity or as a double of value at least
one. -/
theorem value_natToFloat_cases {n : Nat} (hn : 0 < n) :
    value (natToFloat n) = some ⊤ ∨
      ∃ v, 1 ≤ v ∧ value (natToFloat n) = some (ofRat v) := by
  have hinf : value (ofBitsNat (infinityBits false)) = some ⊤ := by
    have hlt : infinityBits false < 2 ^ 64 := by simp [infinityBits]
    rw [value, classify_ofBitsNat hlt (by rw [classifyBits_infinityBits]; simp),
      classifyBits_infinityBits]
    rfl
  have hlen : (0 : Int) < decimalLength n := by exact_mod_cast decimalLength_pos n
  unfold natToFloat DecimalText.toFloat
  simp only [Nat.pos_iff_ne_zero.mp hn, Bool.false_eq_true, if_false, Int.toNat_zero, neg_zero,
    add_zero, Nat.pow_eq, pow_zero, mul_one]
  split_ifs with hbig hsmall
  · exact .inl hinf
  · omega
  · rw [Nat.zero_add]
    rcases nearestBits_whole hn with h | ⟨m, q, hc, hm, hq, h⟩
    · rw [h]
      exact .inl hinf
    · have hlt : packBits false m q < 2 ^ 64 := toNat_pack_finite false hc ▸ BitVec.isLt _
      rw [h, value, classify_ofBitsNat hlt (by rw [classifyBits_packBits false hc]; simp),
        classifyBits_packBits false hc, value_finite]
      exact .inr ⟨_, one_le_of_normal hm hq, rfl⟩

theorem value_one : value 1.0 = some (ofRat 1) := by
  rw [value, show classify 1.0 = .finite ⟨false, 2 ^ 52, -52⟩ by decide, value_finite]
  norm_num

theorem value_half : value 0.5 = some (ofRat (1 / 2)) := by
  rw [value, show classify 0.5 = .finite ⟨false, 2 ^ 52, -53⟩ by decide, value_finite]
  norm_num

theorem value_neg_half : value (-0.5) = some (ofRat (-1 / 2)) := by
  rw [value, show classify (-0.5) = .finite ⟨true, 2 ^ 52, -53⟩ by decide, value_finite]
  norm_num

/-! ## Floor -/

/-- The value of a significand and exponent as a ratio of whole numbers. -/
theorem natCast_mul_zpow_eq_div (m : Nat) (q : Int) :
    (m : ℚ) * 2 ^ q = ((m * 2 ^ q.toNat : Nat) : ℚ) / ((2 ^ (-q).toNat : Nat) : ℚ) := by
  have h := scaled_ratio m 1 (-q)
  simp only [neg_neg, one_mul, Nat.cast_one, div_one, zpow_neg, div_inv_eq_mul] at h
  rw [← h]
  simp [Nat.pow_eq]

/-- `floor x` denotes the floor of what `x` denotes. -/
theorem value_floor {x : Float} {v : ℚ} (h : value x = some (ofRat v)) :
    value (floor x) = some (ofRat ⌊v⌋) := by
  obtain ⟨⟨s, m, q⟩, hc, rfl⟩ := classify_of_value h
  have hcanon : m ≠ 0 → Canonical m q := by
    have := canon_classify x
    rwa [hc] at this
  set D := 2 ^ (-q).toNat with hD
  have hDpos : 0 < D := Nat.two_pow_pos _
  have hfloor : floor x = if m % D = 0 then x
      else DecimalText.toFloat ⟨s, if s then m / D + 1 else m / D, 0⟩ := by
    unfold floor
    rw [hc]
    rfl
  -- the value is `±N / D` with `N = m` off the whole numbers, where `q < 0`
  have hval : Binary.value ⟨s, m, q⟩ =
      (if s then -1 else 1) * (((m * 2 ^ q.toNat : Nat) : ℚ) / (D : ℚ)) := by
    rw [Binary.value, natCast_mul_zpow_eq_div, hD]
  by_cases hdvd : m % D = 0
  · -- a whole double is its own floor
    rw [hfloor, if_pos hdvd, h]
    have hN : D ∣ m * 2 ^ q.toNat := Nat.dvd_trans (Nat.dvd_of_mod_eq_zero hdvd) (Nat.dvd_mul_right _ _)
    have hwhole : ((m * 2 ^ q.toNat : Nat) : ℚ) / (D : ℚ) = ((m * 2 ^ q.toNat / D : Nat) : ℚ) :=
      (Nat.cast_div hN (by exact_mod_cast hDpos.ne')).symm
    rw [hval, hwhole]
    cases s
    · simp only [Bool.false_eq_true, if_false, one_mul, Int.floor_natCast, Int.cast_natCast]
    · simp only [if_true, neg_one_mul]
      rw [← Int.cast_natCast, ← Int.cast_neg, Int.floor_intCast]
  · -- otherwise `q < 0`, the value is `±m / D` with a nonzero remainder
    have hq : q < 0 := by
      by_contra hq
      rw [hD, show (-q).toNat = 0 by omega, pow_zero, Nat.mod_one] at hdvd
      exact hdvd rfl
    have hm : m ≠ 0 := by rintro rfl; simp at hdvd
    have hm53 := (hcanon hm).lt
    have hD2 : 2 ≤ D := by
      rw [hD]
      calc 2 = 2 ^ 1 := rfl
        _ ≤ 2 ^ (-q).toNat := Nat.pow_le_pow_right (by norm_num) (by omega)
    have hwhole : m / D + 1 ≤ 2 ^ 53 := by
      have : m / D < m := Nat.div_lt_self (Nat.pos_of_ne_zero hm) (by omega)
      omega
    have hsplit := ratio_eq_div_add_mod m hDpos
    have hr0 : (0 : ℚ) < ((m % D : Nat) : ℚ) / D := by
      have : 0 < m % D := Nat.pos_of_ne_zero hdvd
      positivity
    have hr1 : ((m % D : Nat) : ℚ) / D < 1 := by
      rw [div_lt_one (by exact_mod_cast hDpos)]
      exact_mod_cast Nat.mod_lt _ hDpos
    rw [hfloor, if_neg hdvd, hval, show q.toNat = 0 by omega, pow_zero, mul_one, hsplit]
    cases s
    · have hfl : ⌊((m / D : Nat) : ℚ) + ((m % D : Nat) : ℚ) / D⌋ = ((m / D : Nat) : Int) :=
        Int.floor_eq_iff.mpr ⟨by rw [Int.cast_natCast]; linarith,
          by rw [Int.cast_natCast]; linarith⟩
      rw [if_neg (by simp), value_toFloat_whole false (by omega)]
      simp only [Bool.false_eq_true, if_false, one_mul, hfl, Int.cast_natCast]
    · have hcast : (((-((m / D : Nat) : Int) - 1 : Int)) : ℚ) = -((m / D : Nat) : ℚ) - 1 := by
        simp only [Int.cast_sub, Int.cast_neg, Int.cast_natCast, Int.cast_one]
      have hfl : ⌊-(((m / D : Nat) : ℚ) + ((m % D : Nat) : ℚ) / D)⌋ = -((m / D : Nat) : Int) - 1 :=
        Int.floor_eq_iff.mpr ⟨by rw [hcast]; linarith, by rw [hcast]; linarith⟩
      rw [if_pos rfl, value_toFloat_whole true hwhole]
      simp only [if_true, neg_one_mul, hfl, Int.cast_sub, Int.cast_neg, Int.cast_natCast,
        Int.cast_one, Nat.cast_add, Nat.cast_one]
      ring_nf

/-! ## The rank read from a position -/

/-- The rank a quantile reads from a position: its floor, raised to zero, as a count. -/
def rankAt (pos : Float) : Nat := Size.ofFloat (maxIgnoringNaN (floor pos) 0.0)

/-- The rank an extended value gives: `0` up to one, then the floor, clamped at `Size.max`. -/
def rankOf : Extended → Nat :=
  WithBot.recBotCoe 0 (WithTop.recTopCoe Size.max fun q => min ⌊q⌋₊ Size.max)

@[simp] theorem rankOf_bot : rankOf ⊥ = 0 := rfl

@[simp] theorem rankOf_top : rankOf ⊤ = Size.max := rfl

@[simp] theorem rankOf_ofRat (q : ℚ) : rankOf (ofRat q) = min ⌊q⌋₊ Size.max := rfl

theorem rankOf_mono : Monotone rankOf :=
  monotone_of_ofRat (fun h => min_le_min_right _ (Nat.floor_le_floor h)) (fun _ => Nat.zero_le _)
    (fun _ => min_le_right _ _)

theorem value_zero : value 0.0 = some (ofRat 0) := by
  rw [value, classify_zero, value_finite]
  simp only [Bool.false_eq_true, if_false, Nat.cast_zero, zero_mul]

theorem ofFloat_zero : Size.ofFloat 0.0 = 0 := by
  rw [Size.ofFloat, classify_zero]
  simp only [Bool.false_eq_true, if_false, Nat.zero_mul, Nat.zero_div]
  exact Nat.zero_min _

/-- A count from a double that denotes a rational at least zero is the floor, clamped. -/
theorem ofFloat_of_value {y : Float} {w : ℚ} (h : value y = some (ofRat w)) (hw : 0 ≤ w) :
    Size.ofFloat y = min ⌊w⌋₊ Size.max := by
  obtain ⟨⟨s, m, q⟩, hc, rfl⟩ := classify_of_value h
  unfold Size.ofFloat
  rw [hc]
  cases s
  · simp only [Bool.false_eq_true, if_false]
    rw [Binary.value, natCast_mul_zpow_eq_div, if_neg (by simp), one_mul, Nat.floor_div_eq_div]
    rfl
  · -- a negative sign with a value at least zero is a zero
    have hm : m = 0 := by
      by_contra hm
      have := value_pos (q := q) hm
      simp only [Binary.value, if_true] at hw
      linarith
    subst hm
    simp [Binary.value]

theorem isNaN_eq_false {y : Float} {u : Extended} (h : value y = some u) : isNaN y = false := by
  rw [Bool.eq_false_iff]
  intro hy
  rw [isNaN_iff_value_eq_none, h] at hy
  exact Option.some_ne_none u hy

/-- Against zero, `maxIgnoringNaN` keeps a double that is not a NaN unless it is below zero. -/
theorem maxIgnoringNaN_zero {y : Float} {u : Extended} (h : value y = some u) :
    maxIgnoringNaN y 0.0 = if u < ofRat 0 then 0.0 else y := by
  have hlt : y < 0.0 ↔ u < ofRat 0 := by
    rw [lt_iff_value]
    simp [h, value_zero]
  unfold maxIgnoringNaN
  rw [isNaN_eq_false h, isNaN_eq_false value_zero]
  simp only [Bool.false_eq_true, if_false]
  by_cases hu : u < ofRat 0
  · rw [if_pos (hlt.mpr hu), if_pos hu]
  · rw [if_neg (mt hlt.mp hu), if_neg hu]

theorem floor_of_classify_ne {x : Float} (h : ∀ b, classify x ≠ .finite b) : floor x = x := by
  unfold floor
  split
  · rename_i b heq
    exact absurd heq (h _)
  · rfl

/-- The rank read from a double that is not a NaN depends only on what it denotes. -/
theorem rankAt_of_value {x : Float} {u : Extended} (h : value x = some u) :
    rankAt x = rankOf u := by
  unfold rankAt
  rcases trichotomy u with rfl | ⟨v, rfl⟩ | rfl
  · -- the negative infinity is its own floor and below zero
    have hc := classify_of_value_bot h
    rw [floor_of_classify_ne (by simp [hc]), maxIgnoringNaN_zero h, if_pos (bot_lt_ofRat 0),
      ofFloat_zero, rankOf_bot]
  · have hf := value_floor h
    rw [maxIgnoringNaN_zero hf, rankOf_ofRat]
    split_ifs with hneg
    · -- below zero the rank is zero
      have hv : v < 0 := by
        have := Int.floor_lt.mp (show ⌊v⌋ < (0 : ℤ) by exact_mod_cast (ofRat_lt_ofRat.mp hneg))
        simpa using this
      rw [ofFloat_zero, Nat.floor_eq_zero.mpr (by linarith), Nat.zero_min]
    · have hnn : (0 : ℚ) ≤ ⌊v⌋ := by
        simpa using hneg
      rw [ofFloat_of_value hf hnn]
      have hfl : ⌊((⌊v⌋ : ℤ) : ℚ)⌋₊ = ⌊v⌋₊ := by
        rw [← Int.floor_toNat, Int.floor_intCast, Int.floor_toNat]
      rw [hfl]
  · -- the positive infinity is its own floor and counts as many as can be
    have hc := classify_of_value_top h
    rw [floor_of_classify_ne (by simp [hc]), maxIgnoringNaN_zero h,
      if_neg (not_lt.mpr (ofRat_lt_top 0).le), rankOf_top, Size.ofFloat, hc]
    rfl

/-- A NaN position reads rank zero. -/
theorem rankAt_of_isNaN {x : Float} (h : value x = none) : rankAt x = 0 := by
  have hc := classify_of_value_none h
  have hnan : isNaN x = true := by rw [isNaN, hc]; rfl
  unfold rankAt maxIgnoringNaN
  rw [floor_of_classify_ne (by simp [hc]), hnan, if_pos rfl, ofFloat_zero]

/-! ## The position `lerp(-0.5, c, p)` -/

/-- What `(1 - p) · (-0.5)` denotes for a percentile `p` that denotes `u`. -/
def lowerTerm (u : Extended) : Extended :=
  roundMap (· * (-1 / 2)) ⊤ ⊥ (roundMap (1 - ·) ⊤ ⊥ u)

theorem value_lowerTerm {p : Float} {u : Extended} (hp : value p = some u) :
    value ((1.0 - p) * (-0.5)) = some (lowerTerm u) :=
  value_mul_of_neg value_neg_half (by norm_num) (value_sub_of_finite value_one hp)

/-- Both roundings turn the order around, so the term grows with `p`. -/
theorem lowerTerm_mono : Monotone lowerTerm := by
  have hsub : Antitone (roundMap (1 - ·) ⊤ ⊥) := roundMap_anti fun _ _ h => by linarith
  have hmul : Antitone (roundMap (· * (-1 / 2)) ⊤ ⊥) := roundMap_anti fun _ _ h => by linarith
  exact hmul.comp hsub

theorem lowerTerm_zero : lowerTerm (ofRat 0) = ofRat (-1 / 2) := by
  have h1 : roundExtended 1 = ofRat 1 := by
    exact_mod_cast roundExtended_intCast (n := 1) (by norm_num)
  simp only [lowerTerm, roundMap_ofRat, sub_zero, h1, one_mul]
  exact roundExtended_of_value value_neg_half

theorem lowerTerm_one : lowerTerm (ofRat 1) = ofRat 0 := by
  simp only [lowerTerm, roundMap_ofRat, sub_self, roundExtended_zero, zero_mul]

section Position

variable {c p p' : Float} {e u u' : Extended}

theorem roundMap_mul_mono {k : ℚ} (hk : 0 < k) : Monotone (roundMap (· * k) ⊥ ⊤) :=
  roundMap_mono fun _ _ h => mul_le_mul_of_nonneg_right h hk.le

/-- Below zero the product with a count above zero is at most zero, or a NaN: an infinite count
times zero. -/
theorem value_mul_count_of_nonpos (hp : value p = some u) (hc : value c = some e)
    (he : ofRat 0 < e) (hu : u ≤ ofRat 0) :
    value (p * c) = none ∨ ∃ d, value (p * c) = some d ∧ d ≤ ofRat 0 := by
  rcases trichotomy e with rfl | ⟨k, rfl⟩ | rfl
  · exact absurd he (not_lt.mpr bot_le)
  · have hk : 0 < k := ofRat_lt_ofRat.mp he
    refine .inr ⟨_, value_mul_of_pos hc hk hp, ?_⟩
    simpa [roundExtended_zero] using roundMap_mul_mono hk hu
  · rw [value_mul_top hp hc]
    split_ifs with h0 hneg
    · exact .inl rfl
    · exact .inr ⟨⊥, rfl, bot_le⟩
    · exact absurd (lt_of_le_of_ne hu h0) hneg

/-- Above zero the product with a count above zero is at least zero and grows with the
percentile. -/
theorem value_mul_count_mono (hp : value p = some u) (hp' : value p' = some u')
    (hc : value c = some e) (he : ofRat 0 < e) (hu : ofRat 0 < u) (huu : u ≤ u') :
    ∃ d d', value (p * c) = some d ∧ value (p' * c) = some d' ∧
      ofRat 0 ≤ d ∧ d ≤ d' := by
  rcases trichotomy e with rfl | ⟨k, rfl⟩ | rfl
  · exact absurd he (not_lt.mpr bot_le)
  · have hk : 0 < k := ofRat_lt_ofRat.mp he
    refine ⟨_, _, value_mul_of_pos hc hk hp, value_mul_of_pos hc hk hp', ?_,
      roundMap_mul_mono hk huu⟩
    simpa [roundExtended_zero] using roundMap_mul_mono hk hu.le
  · -- an infinite count makes both products the positive infinity
    have hu' : ofRat 0 < u' := lt_of_lt_of_le hu huu
    refine ⟨⊤, ⊤, ?_, ?_, le_top, le_rfl⟩
    · rw [value_mul_top hp hc, if_neg hu.ne', if_neg (not_lt.mpr hu.le)]
    · rw [value_mul_top hp' hc, if_neg hu'.ne', if_neg (not_lt.mpr hu'.le)]

/-- What the position `lerp(-0.5, c, p)` denotes: the rounded sum of `(1 - p) · (-0.5)` and
`p · c`, or a NaN where `p · c` is one. -/
theorem value_lerp (hp : value p = some u) :
    value (lerp (-0.5) c p) = (value (p * c)).bind (roundAdd (lowerTerm u)) := by
  cases hd : value (p * c) with
  | none => exact value_add_of_none hd
  | some d => exact value_add_extended (value_lowerTerm hp) hd

/-- At a percentile at most zero the position is below zero, or a NaN, so the rank is zero. -/
theorem rankAt_lerp_of_nonpos (hc : value c = some e) (he : ofRat 0 < e)
    (hp : value p = some u) (hu : u ≤ ofRat 0) : rankAt (lerp (-0.5) c p) = 0 := by
  rcases value_mul_count_of_nonpos hp hc he hu with hnan | ⟨d, hd, hd0⟩
  · have hpos := value_lerp (c := c) hp
    rw [hnan, Option.bind_none] at hpos
    exact rankAt_of_isNaN hpos
  · have hb : lowerTerm u ≤ ofRat (-1 / 2) := lowerTerm_zero ▸ lowerTerm_mono hu
    have hsum := value_lerp (c := c) hp
    rw [hd, Option.bind_some] at hsum
    cases hw : roundAdd (lowerTerm u) d with
    | none => exact rankAt_of_isNaN (hsum.trans hw)
    | some w =>
      -- the sum is at most `-1/2 + 0`, which rounds to itself
      have hhalf : roundAdd (ofRat (-1 / 2)) (ofRat 0) = some (ofRat (-1 / 2)) := by
        simp [roundAdd, roundExtended_of_value value_neg_half]
      have hwle : w ≤ ofRat (-1 / 2) := roundAdd_mono hb hd0 hw hhalf
      have h0 : rankOf (ofRat (-1 / 2)) = 0 := by
        rw [rankOf_ofRat, Nat.floor_of_nonpos (by norm_num), Nat.zero_min]
      rw [rankAt_of_value (hsum.trans hw)]
      exact Nat.le_zero.mp (h0 ▸ rankOf_mono hwle)

/-- Above zero the position is never a NaN and grows with the percentile. -/
theorem rankAt_lerp_mono_of_pos (hc : value c = some e) (he : ofRat 0 < e)
    (hp : value p = some u) (hp' : value p' = some u') (hu : ofRat 0 < u) (huu : u ≤ u') :
    rankAt (lerp (-0.5) c p) ≤ rankAt (lerp (-0.5) c p') := by
  obtain ⟨d, d', hd, hd', hd0, hdd⟩ := value_mul_count_mono hp hp' hc he hu huu
  have hb : ofRat (-1 / 2) ≤ lowerTerm u := lowerTerm_zero ▸ lowerTerm_mono hu.le
  have hbb : lowerTerm u ≤ lowerTerm u' := lowerTerm_mono huu
  -- no term is the negative infinity, so both sums exist
  have hnb : lowerTerm u ≠ ⊥ := ne_bot_of_le_ne_bot (ofRat_ne_bot _) hb
  have hnd : d ≠ ⊥ := ne_bot_of_le_ne_bot (ofRat_ne_bot 0) hd0
  obtain ⟨w, hw⟩ := roundAdd_isSome (.inl ⟨hnb, hnd⟩)
  obtain ⟨w', hw'⟩ :=
    roundAdd_isSome (.inl ⟨ne_bot_of_le_ne_bot hnb hbb, ne_bot_of_le_ne_bot hnd hdd⟩)
  have hsum := value_lerp (c := c) hp
  have hsum' := value_lerp (c := c) hp'
  rw [hd, Option.bind_some, hw] at hsum
  rw [hd', Option.bind_some, hw'] at hsum'
  rw [rankAt_of_value hsum, rankAt_of_value hsum']
  exact rankOf_mono (roundAdd_mono hbb hdd hw hw')

/-- The rank is monotone in the percentile: one at most zero reads rank zero, and above zero
the position grows. -/
theorem rankAt_lerp_mono (hc : value c = some e) (he : ofRat 0 < e) (h : p ≤ p') :
    rankAt (lerp (-0.5) c p) ≤ rankAt (lerp (-0.5) c p') := by
  obtain ⟨u, u', hp, hp', huu⟩ := (le_iff_value p p').mp h
  by_cases hu : u ≤ ofRat 0
  · rw [rankAt_lerp_of_nonpos hc he hp hu]
    exact Nat.zero_le _
  · exact rankAt_lerp_mono_of_pos hc he hp hp' (lt_of_not_ge hu) huu

/-- At `p = 1` a finite count `c` is the position itself. -/
theorem rankAt_lerp_one {k : ℚ} (hc : value c = some (ofRat k)) (hk : 0 < k) :
    rankAt (lerp (-0.5) c 1.0) = rankOf (ofRat k) := by
  have hd : value (1.0 * c) = some (ofRat k) := by
    rw [value_mul_of_pos hc hk value_one, roundMap_ofRat, one_mul, roundExtended_of_value hc]
  have hsum : roundAdd (ofRat 0) (ofRat k) = some (ofRat k) := by
    simp [roundAdd, roundExtended_of_value hc]
  have hpos := value_lerp (c := c) value_one
  rw [hd, Option.bind_some, lowerTerm_one, hsum] at hpos
  rw [rankAt_of_value hpos]

end Position

/-! ## The count `n - 0.5` -/

/-- A ratio from one half on rounds to a double from one half on. -/
theorem half_le_roundExtended {v : ℚ} (hv : 1 / 2 ≤ v) : ofRat (1 / 2) ≤ roundExtended v := by
  have hle := roundExtended_mono hv
  rwa [roundExtended_of_value value_half] at hle

/-- The count `n - 0.5` of a non-empty sample is above zero; it is the positive infinity for a
count too large for a double. -/
theorem value_count_pos {n : Nat} (hn : 0 < n) :
    ∃ e, value (natToFloat n - 0.5) = some e ∧ ofRat 0 < e := by
  rcases value_natToFloat_cases hn with htop | ⟨v, hv1, hv⟩
  · exact ⟨⊤, value_sub_of_top htop value_half, ofRat_lt_top 0⟩
  · refine ⟨_, value_sub_of_finite hv value_half, ?_⟩
    have hhalf := half_le_roundExtended (show 1 / 2 ≤ v - 1 / 2 by linarith)
    have hpos : ofRat 0 < ofRat (1 / 2) := ofRat_lt_ofRat.mpr (by norm_num)
    exact lt_of_lt_of_le hpos (by simpa using hhalf)

/-- A count of at most `2^53` is exact, so `n - 0.5` rounds to a double from `n - 1` to `n`. -/
theorem value_count_of_le {n : Nat} (hn : 0 < n) (hn' : n ≤ 2 ^ 53) :
    ∃ k, value (natToFloat n - 0.5) = some (ofRat k) ∧ (n : ℚ) - 1 ≤ k ∧ 0 < k := by
  have hv := value_natToFloat hn'
  have hn1 : (1 : ℚ) ≤ n := by exact_mod_cast hn
  have hlo : ofRat ((n : ℚ) - 1) ≤ roundExtended ((n : ℚ) - 1 / 2) := by
    have hexact : roundExtended ((n : ℚ) - 1) = ofRat ((n : ℚ) - 1) := by
      have h := roundExtended_intCast (n := (n : ℤ) - 1) (by rw [abs_lt]; constructor <;> omega)
      push_cast at h
      exact h
    rw [← hexact]
    exact roundExtended_mono (by linarith)
  have hhi : roundExtended ((n : ℚ) - 1 / 2) ≤ ofRat n := by
    rw [← roundExtended_of_value hv]
    exact roundExtended_mono (by linarith)
  obtain ⟨k, hk⟩ := exists_ofRat (ne_bot_of_le_ne_bot (ofRat_ne_bot _) hlo)
    (ne_top_of_le_ne_top (ofRat_ne_top _) hhi)
  have hhalf := half_le_roundExtended (show 1 / 2 ≤ (n : ℚ) - 1 / 2 by linarith)
  rw [hk] at hlo hhalf
  refine ⟨k, by rw [value_sub hv value_half, hk], ofRat_le_ofRat.mp hlo, ?_⟩
  linarith [ofRat_le_ofRat.mp hhalf]

/-- For a sample of at most `2^53` elements, every percentile from one on reads a rank of at
least `n - 1`. -/
theorem le_rankAt_lerp_of_one_le {n : Nat} (hn : 0 < n) (hn' : n ≤ 2 ^ 53) {p : Float}
    (hp : 1.0 ≤ p) : n - 1 ≤ rankAt (lerp (-0.5) (natToFloat n - 0.5) p) := by
  obtain ⟨k, hc, hk, hk0⟩ := value_count_of_le hn hn'
  have hfloor : n - 1 ≤ ⌊k⌋₊ := Nat.le_floor (by rw [Nat.cast_sub hn]; simpa using hk)
  have hmax : n - 1 ≤ Size.max := by
    simp only [Size.max, Nat.pow_eq]
    omega
  calc n - 1 ≤ rankOf (ofRat k) := by
        rw [rankOf_ofRat]
        exact le_min hfloor hmax
    _ = rankAt (lerp (-0.5) (natToFloat n - 0.5) 1.0) := (rankAt_lerp_one hc hk0).symm
    _ ≤ rankAt (lerp (-0.5) (natToFloat n - 0.5) p) :=
        rankAt_lerp_mono hc (ofRat_lt_ofRat.mpr hk0) hp

end Quantile
end Backtest
