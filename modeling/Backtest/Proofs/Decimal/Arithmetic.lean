import Mathlib
import Backtest.Proofs.Decimal.Nearest
/-!
# Lean's float arithmetic rounds to nearest

Lean's model adds, subtracts and multiplies doubles exactly, as a significand and a power of
two, and then rounds: it shifts the significand right onto the grid of its binade, keeping a
round bit and a sticky bit, rounds half to even on them, and shifts once more if that carried
into the next binade. This module shows that the result is the double nearest to the exact
value:

* `exact_shiftRight`, `roundedMantissa_exact_shiftRight`: the shifted significand with its two
  bits rounds as `roundHalfEven` does;
* `packedValue_roundWithAccuracy`, `packedValue_round`, `packedValue_normalize`: what the
  model's rounding builds denotes `roundExtended` of the exact value;
* `value_add`, `value_sub`, `value_mul`: for finite doubles, `x + y`, `x - y` and `x * y` denote
  the rounded sum, difference and product of their values.
-/

namespace Backtest.Decimal

open Float.Model (Format UnpackedFloat totalExponent)
open Float.Model.UnpackedFloat
open Extended

/-! ## Shifting out bits -/

theorem shiftRight_succ (em : ExtendedMantissa) (k : Nat) :
    em >>> (k + 1) = (em >>> k).shiftRightOne := rfl

/-- Shifting an exact significand `k` places right leaves its quotient by `2^k`, a round bit
that says whether the remainder is at least half of `2^k`, and a sticky bit that says whether
the remainder is anything but zero or exactly a half. -/
theorem exact_shiftRight (m k : Nat) :
    (ExtendedMantissa.mk m false false) >>> k =
      ⟨m / 2 ^ k, decide (2 ^ k ≤ 2 * (m % 2 ^ k)),
        decide (m % 2 ^ k ≠ 0 ∧ 2 * (m % 2 ^ k) ≠ 2 ^ k)⟩ := by
  induction k with
  | zero => simp [HShiftRight.hShiftRight, Nat.repeat, Nat.mod_one]
  | succ k ih =>
    rw [shiftRight_succ, ih, ExtendedMantissa.shiftRightOne]
    -- the new remainder is the old one, plus `2^k` when the bit shifted out is set
    have hmod : m % 2 ^ (k + 1) = m % 2 ^ k + 2 ^ k * (m / 2 ^ k % 2) := Nat.mod_pow_succ
    have hdiv : m / 2 ^ k / 2 = m / 2 ^ (k + 1) := by
      rw [Nat.div_div_eq_div_mul, Nat.pow_succ]
    have hr := Nat.mod_lt m (Nat.two_pow_pos k)
    have hpow : 2 ^ (k + 1) = 2 * 2 ^ k := by rw [Nat.pow_succ, Nat.mul_comm]
    rw [hdiv, hmod, hpow]
    dsimp only
    have hb := Nat.mod_two_eq_zero_or_one (m / 2 ^ k)
    generalize m / 2 ^ k % 2 = b at hb ⊢
    generalize m % 2 ^ k = r at hr ⊢
    generalize 2 ^ k = P at hr ⊢
    clear hmod hdiv hpow ih
    simp only [ExtendedMantissa.mk.injEq, true_and]
    constructor <;> rw [Bool.eq_iff_iff] <;>
      simp only [bne_iff_ne, Bool.or_eq_true, decide_eq_true_eq] <;>
      rcases hb with rfl | rfl <;> omega

/-- The round and sticky bits round the quotient half to even, as `roundHalfEven` does. -/
theorem roundedMantissa_exact_shiftRight (m k : Nat) :
    ((ExtendedMantissa.mk m false false) >>> k).roundedMantissa = roundHalfEven m (2 ^ k) := by
  rw [exact_shiftRight]
  have hr := Nat.mod_lt m (Nat.two_pow_pos k)
  unfold roundHalfEven ExtendedMantissa.roundedMantissa ExtendedMantissa.accuracy
  dsimp only
  generalize m % 2 ^ k = r at hr ⊢
  generalize m / 2 ^ k = q
  generalize 2 ^ k = P at hr ⊢
  -- the four accuracies: exact, below a half, a tie, above a half
  rcases hrb : decide (P ≤ 2 * r) <;> rcases hsb : decide (r ≠ 0 ∧ 2 * r ≠ P) <;>
    simp only [decide_eq_true_eq, decide_eq_false_iff_not] at hrb hsb <;>
    simp only [Accuracy.roundToNearestEven] <;> split_ifs <;> omega

/-- `roundHalfEven` rounds the ratio half to even. -/
theorem roundHalfEven_eq_roundEven {num den : Nat} (hden : 0 < den) :
    (roundHalfEven num den : ℤ) = roundEven ((num : ℚ) / den) := by
  have hsplit := ratio_eq_div_add_mod num hden
  have hdq : (0 : ℚ) < den := by exact_mod_cast hden
  have ht0 : (0 : ℚ) ≤ ((num % den : Nat) : ℚ) / den := by positivity
  have ht1 : ((num % den : Nat) : ℚ) / den < 1 := by
    rw [div_lt_one hdq]
    exact_mod_cast Nat.mod_lt _ hden
  have hfloor : ⌊(num : ℚ) / den⌋ = ((num / den : Nat) : ℤ) := by
    rw [Int.floor_eq_iff, hsplit, Int.cast_natCast]
    constructor <;> linarith
  have hfract : Int.fract ((num : ℚ) / den) = ((num % den : Nat) : ℚ) / den := by
    rw [Int.fract, hfloor, hsplit, Int.cast_natCast]
    ring
  have hcond : (1 / 2 < Int.fract ((num : ℚ) / den) ∨
      (Int.fract ((num : ℚ) / den) = 1 / 2 ∧ ⌊(num : ℚ) / den⌋ % 2 = 1)) ↔
      (2 * (num % den) > den ∨ (2 * (num % den) = den ∧ num / den % 2 = 1)) := by
    rw [hfract, hfloor, ← half_lt_div_iff hden, ← div_eq_half_iff hden]
    omega
  unfold roundEven roundHalfEven
  dsimp only
  by_cases hc : 2 * (num % den) > den ∨ (2 * (num % den) = den ∧ num / den % 2 = 1)
  · rw [if_pos hc, if_pos (hcond.mpr hc), hfloor]
    push_cast
    rfl
  · rw [if_neg hc, if_neg (mt hcond.mp hc), hfloor]

/-! ## What the model packs -/

/-- The value of the double that an unpacked float of Lean's model packs into. -/
def packedValue (u : UnpackedFloat) : Option Extended :=
  value (Float.ofModel (Float.Model.pack u))

theorem classify_ofModel_pack (u : UnpackedFloat) :
    classify (Float.ofModel (Float.Model.pack u)) = classifyBits (pack Format.binary64 u).toNat :=
  rfl

theorem packedValue_infinity (s : Bool) :
    packedValue (.infinity (signOf s)) = some (if s then ⊥ else ⊤) := by
  rw [packedValue, value, classify_ofModel_pack, toNat_pack_infinity, classifyBits_infinityBits]
  rfl

theorem packedValue_zero (z : Sign) : packedValue (.zero z) = some (ofRat 0) := by
  obtain ⟨s, rfl⟩ : ∃ s, z = signOf s := ⟨z == .negative, by cases z <;> rfl⟩
  rw [packedValue, value, classify_ofModel_pack, toNat_pack_zero, classifyBits_signBits,
    value_finite]
  simp

/-- A finite unpacked float with at most 53 bits, its leading bit set above the least exponent,
denotes its value, or the infinity of its sign once its exponent passes the largest. -/
theorem packedValue_finite (s : Bool) {m : Nat} {q : Int} (hm : 0 < m) (hlt : m < 2 ^ 53)
    (hnorm : 2 ^ 52 ≤ m ∨ q = minExponent) (hq : minExponent ≤ q) :
    packedValue (.finite (signOf s) m q hm) = some (ofRounded (Binary.value ⟨s, m, q⟩)) := by
  have habs := abs_binaryValue ⟨s, m, q⟩
  simp only at habs
  by_cases hmax : q ≤ maxExponent
  · -- a canonical double: packed and read back as itself
    have hc : Canonical m q := ⟨hm, hlt, hq, hmax, hnorm⟩
    have hb := roundExtended_binaryValue (b := ⟨s, m, q⟩) hc
    rw [roundExtended, roundNearest_binaryValue (b := ⟨s, m, q⟩) hc] at hb
    rw [packedValue, value, classify_ofModel_pack, toNat_pack_finite s hc,
      classifyBits_packBits s hc, hb]
    rfl
  · -- past the largest exponent the model packs an infinity
    have hnorm' : 2 ^ 52 ≤ m := hnorm.resolve_right (by simp only [minExponent, maxExponent] at *; omega)
    have hbias : (Format.binary64.exponentBias : Int) = 1023 := by decide
    have hpack : pack Format.binary64 (.finite (signOf s) m q hm) = packedInfinity Format.binary64 (signOf s) := by
      have hbits : Format.binary64.exponentBits = 11 := rfl
      have hover : 2 ^ Format.binary64.exponentBits ≤
          (q + Format.binary64.exponentBias + Format.binary64.mantissaBitsWithoutImplicit).toNat + 1 := by
        rw [hbias, hbits]
        simp only [maxExponent] at hmax
        simp
        omega
      simp only [pack, if_pos hover]
    -- and the value is at least `2^52 · 2^972 = 2^1024`
    have hbig : (2 : ℚ) ^ 1024 ≤ m * 2 ^ q := by
      have h1 : (2 : ℚ) ^ 52 ≤ m := by exact_mod_cast hnorm'
      have h2 : (2 : ℚ) ^ (972 : ℤ) ≤ 2 ^ q :=
        zpow_le_zpow_right₀ (by norm_num) (by simp only [maxExponent] at hmax; omega)
      calc (2 : ℚ) ^ 1024 = (2 : ℚ) ^ 52 * (2 : ℚ) ^ (972 : ℤ) := by
            rw [← zpow_natCast, ← zpow_natCast, ← zpow_add₀ two_ne_zero]
            norm_num
        _ ≤ (m : ℚ) * 2 ^ q := mul_le_mul h1 h2 (by positivity) (by positivity)
    have hinf : (packedInfinity Format.binary64 (signOf s)).toNat = infinityBits s :=
      toNat_pack_infinity s
    rw [packedValue, value, classify_ofModel_pack, hpack, hinf, classifyBits_infinityBits]
    have hpos : (0 : ℚ) < 2 ^ 1024 := by positivity
    cases s <;> simp only [Classified.value, ofRounded, Binary.value, if_true, if_false,
      Bool.false_eq_true, one_mul, neg_one_mul] <;> generalize (2 : ℚ) ^ 1024 = B at hbig hpos ⊢
    · rw [if_pos hbig]
    · rw [if_neg (by linarith), if_pos (by linarith)]

/-! ## Rounding a significand and exponent -/

theorem div_le_roundHalfEven (num den : Nat) : num / den ≤ roundHalfEven num den := by
  unfold roundHalfEven
  dsimp only
  split_ifs <;> omega

theorem roundHalfEven_le_div_add_one (num den : Nat) : roundHalfEven num den ≤ num / den + 1 := by
  unfold roundHalfEven
  dsimp only
  split_ifs <;> omega

theorem roundNearest_signed (s : Bool) (v : ℚ) :
    roundNearest ((if s then -1 else 1) * v) = (if s then -1 else 1) * roundNearest v := by
  cases s <;> simp [roundNearest_neg]

/-- The model's target exponent is the grid exponent of the exact value. -/
theorem targetExponent_eq_gridExponent {m : Nat} (hm : 0 < m) (e : Int) :
    Format.binary64.targetExponent (totalExponent m e) = gridExponent (m * 2 ^ e) := by
  have hmin : Format.binary64.minExponent = minExponent := by decide
  have hbits : Format.binary64.mantissaBits = 53 := rfl
  rw [gridExponent, abs_of_pos (value_pos hm.ne'), int_log_natCast_mul_two_zpow hm]
  simp only [Format.targetExponent, totalExponent, hmin, hbits]
  omega

/-- From an exponent at most its target, the first shift lands on the target. -/
theorem shiftToTargetExponent_exact {m : Nat} {e : Int}
    (he : e ≤ Format.binary64.targetExponent (totalExponent m e)) :
    shiftToTargetExponent Format.binary64 m e .exact =
      (ExtendedMantissa.mk m false false >>> (Format.binary64.targetExponent (totalExponent m e) - e).toNat,
        Format.binary64.targetExponent (totalExponent m e)) := by
  simp only [shiftToTargetExponent, shiftToExponent, ExtendedMantissa.ofMantissaAndAccuracy,
    Prod.mk.injEq, true_and]
  omega

/-- The carry shift: a rounded significand below `2^53` stays where it is, and `2^53` becomes
`2^52` one exponent up. -/
theorem shiftToTargetExponent_carry {r : Nat} {t : Int} (hr : r ≤ 2 ^ 53)
    (ht : minExponent ≤ t) :
    shiftToTargetExponent Format.binary64 r t .exact =
      if r < 2 ^ 53 then (⟨r, false, false⟩, t) else (⟨2 ^ 52, false, false⟩, t + 1) := by
  have hmin : Format.binary64.minExponent = minExponent := by decide
  have hbits : Format.binary64.mantissaBits = 53 := rfl
  -- below `2^53` the bit length is at most 53 and the target at most `t`; at it, `t + 1`
  have hshift : (Format.binary64.targetExponent (totalExponent r t) - t).toNat =
      if r < 2 ^ 53 then 0 else 1 := by
    simp only [Format.targetExponent, totalExponent, hmin, hbits, minExponent, Nat.cast_ofNat] at ht ⊢
    split_ifs with hlt
    · have hlog : Nat.log2 r < 53 := by
        rcases Nat.eq_zero_or_pos r with rfl | hpos
        · simp
        · exact (Nat.log2_lt hpos.ne').mpr hlt
      omega
    · have hr : r = 2 ^ 53 := by omega
      subst hr
      rw [Nat.log2_two_pow]
      omega
  simp only [shiftToTargetExponent, shiftToExponent, ExtendedMantissa.ofMantissaAndAccuracy,
    hshift]
  split_ifs with hlt
  · simp only [Nat.cast_zero, add_zero]
    rfl
  · have hr : r = 2 ^ 53 := by omega
    subst hr
    rw [exact_shiftRight]
    simp only [Prod.mk.injEq, ExtendedMantissa.mk.injEq, Nat.cast_one, and_true]
    refine ⟨by norm_num, by decide, by decide⟩

/-- On a grid at or above its exponent, `m · 2^e` rounds as `m` over the grid's spacing rounds
half to even. -/
theorem roundNearest_natCast_mul {m : Nat} {e : Int} (he : e ≤ gridExponent (m * 2 ^ e)) :
    roundNearest (m * 2 ^ e) = roundHalfEven m (2 ^ (gridExponent (m * 2 ^ e) - e).toNat) *
      (2 : ℚ) ^ gridExponent (m * 2 ^ e) := by
  set t := gridExponent ((m : ℚ) * 2 ^ e)
  have hk : (((t - e).toNat : ℕ) : ℤ) = t - e := Int.toNat_of_nonneg (by omega)
  have hratio : (m : ℚ) * 2 ^ e / 2 ^ t = (m : ℚ) / ((2 ^ (t - e).toNat : ℕ) : ℚ) := by
    rw [Nat.cast_pow, Nat.cast_ofNat, ← zpow_natCast, hk, zpow_sub₀ two_ne_zero]
    field_simp
  rw [roundNearest, hratio, ← roundHalfEven_eq_roundEven (Nat.two_pow_pos _), Int.cast_natCast]

theorem ofRounded_zero : ofRounded 0 = ofRat 0 := by
  have h := roundExtended_zero
  rwa [roundExtended, roundNearest_zero] at h

/-- Rounding a significand at an exponent at most its target packs the double nearest to its
value. -/
theorem packedValue_roundWithAccuracy (s : Bool) {m : Nat} (hm : 0 < m) {e : Int}
    (he : e ≤ Format.binary64.targetExponent (totalExponent m e)) :
    packedValue (roundWithAccuracy Format.binary64 (signOf s) m e .exact) =
      some (roundExtended (Binary.value ⟨s, m, e⟩)) := by
  have htg := targetExponent_eq_gridExponent hm e
  have he' : e ≤ gridExponent ((m : ℚ) * 2 ^ e) := htg ▸ he
  have hround := roundNearest_natCast_mul he'
  set t := gridExponent ((m : ℚ) * 2 ^ e) with ht
  set k := (t - e).toNat
  set r := roundHalfEven m (2 ^ k) with hr
  have htdef : t = max ((Nat.log2 m : ℤ) + e - 52) minExponent := by
    rw [ht, gridExponent, abs_of_pos (value_pos hm.ne'), int_log_natCast_mul_two_zpow hm]
  simp only [minExponent] at htdef
  -- the quotient by the grid's spacing has at most 53 bits, and 53 off the least grid
  have hq53 : m / 2 ^ k < 2 ^ 53 := by
    rw [Nat.div_lt_iff_lt_mul (Nat.two_pow_pos k), ← Nat.pow_add]
    calc m < 2 ^ (Nat.log2 m + 1) := Nat.lt_log2_self
      _ ≤ 2 ^ (53 + k) := Nat.pow_le_pow_right (by norm_num) (by omega)
  have hr53 : r ≤ 2 ^ 53 := (roundHalfEven_le_div_add_one _ _).trans (by omega)
  have hnorm : t ≠ minExponent → 2 ^ 52 ≤ r := by
    intro hne
    simp only [minExponent] at hne
    refine le_trans ?_ (div_le_roundHalfEven _ _)
    rw [Nat.le_div_iff_mul_le (Nat.two_pow_pos k), ← Nat.pow_add]
    calc 2 ^ (52 + k) = 2 ^ Nat.log2 m := by congr 1; omega
      _ ≤ m := Nat.log2_self_le hm.ne'
  have hmin : minExponent ≤ t := by simp only [minExponent]; omega
  have hval : roundExtended (Binary.value ⟨s, m, e⟩) = ofRounded (Binary.value ⟨s, r, t⟩) := by
    simp only [roundExtended, Binary.value, roundNearest_signed, hround]
  rw [hval]
  unfold roundWithAccuracy
  rw [shiftToTargetExponent_exact he, htg]
  dsimp only
  rw [roundedMantissa_exact_shiftRight, shiftToTargetExponent_carry hr53 hmin]
  by_cases hlt : r < 2 ^ 53
  · rw [if_pos hlt]
    dsimp only
    split
    · -- everything rounded away: a zero of the sign
      rename_i hz
      have hv : Binary.value ⟨s, r, t⟩ = 0 := by simp [Binary.value, hz]
      rw [hv, ofRounded_zero, packedValue_zero]
    · rename_i hz
      exact packedValue_finite s _ hlt ((eq_or_ne t minExponent).elim Or.inr (Or.inl ∘ hnorm)) hmin
  · -- the rounding carried into the next binade
    have hr' : r = 2 ^ 53 := by omega
    rw [if_neg hlt]
    dsimp only
    rw [dif_neg (by norm_num), packedValue_finite s _ (by norm_num) (Or.inl le_rfl) (by omega)]
    congr 2
    simp only [Binary.value, hr', Nat.cast_pow, Nat.cast_ofNat, zpow_add_one₀ (two_ne_zero (α := ℚ))]
    ring

/-- Lowering the exponent to `t` shifts the significand left and keeps the value. -/
theorem decreaseExponent_eq (m : Nat) (e t : Int) :
    decreaseExponent m e t = (m * 2 ^ (e - t).toNat, e - (e - t).toNat) := by
  simp [decreaseExponent, Nat.shiftLeft_eq]

theorem natCast_mul_two_pow_mul_zpow (m d : Nat) (e : Int) :
    ((m * 2 ^ d : Nat) : ℚ) * 2 ^ (e - d) = m * 2 ^ e := by
  push_cast
  rw [mul_assoc, ← zpow_natCast, ← zpow_add₀ two_ne_zero, add_sub_cancel]

/-- Rounding any significand and exponent packs the double nearest to its value: the model first
lowers the exponent to the target, which keeps the value, then rounds. -/
theorem packedValue_round (s : Bool) {m : Nat} (hm : 0 < m) (e : Int) :
    packedValue (UnpackedFloat.round Format.binary64 (signOf s) m e) =
      some (roundExtended (Binary.value ⟨s, m, e⟩)) := by
  set T := Format.binary64.targetExponent (totalExponent m e) with hT
  set d := (e - T).toNat
  have hm' : 0 < m * 2 ^ d := Nat.mul_pos hm (Nat.two_pow_pos d)
  have hv := natCast_mul_two_pow_mul_zpow m d e
  -- the lowered significand and exponent have the same value, so the same target
  have hT' : Format.binary64.targetExponent (totalExponent (m * 2 ^ d) (e - d)) = T := by
    rw [targetExponent_eq_gridExponent hm', hv, hT, targetExponent_eq_gridExponent hm]
  unfold UnpackedFloat.round
  dsimp only
  rw [← hT, decreaseExponent_eq]
  dsimp only
  rw [packedValue_roundWithAccuracy s hm' (by rw [hT']; omega)]
  simp only [Binary.value]
  congr 3

/-- Rounding a signed integer significand: a zero for `0`, else the double nearest to its value. -/
theorem packedValue_normalize (M e : Int) (z : Sign) :
    packedValue (UnpackedFloat.normalize Format.binary64 M e z) = some (roundExtended (M * 2 ^ e)) := by
  unfold UnpackedFloat.normalize
  rcases lt_trichotomy M 0 with hM | rfl | hM
  · rw [show compare M 0 = .lt from Int.compare_eq_lt.mpr hM]
    dsimp only
    rw [show Sign.negative = signOf true from rfl, packedValue_round true (by omega)]
    have hcast : (((-M).toNat : ℕ) : ℚ) = -(M : ℚ) := by
      rw [← Int.cast_natCast, Int.toNat_of_nonneg (by omega), Int.cast_neg]
    simp only [Binary.value, if_true, hcast]
    ring_nf
  · rw [show compare (0 : ℤ) 0 = .eq from compare_eq_iff_eq.mpr rfl, Int.cast_zero, zero_mul,
      roundExtended_zero]
    exact packedValue_zero z
  · rw [show compare M 0 = .gt from Int.compare_eq_gt.mpr hM]
    dsimp only
    rw [show Sign.positive = signOf false from rfl, packedValue_round false (by omega)]
    have hcast : ((M.toNat : ℕ) : ℚ) = (M : ℚ) := by
      rw [← Int.cast_natCast, Int.toNat_of_nonneg hM.le]
    simp only [Binary.value, Bool.false_eq_true, if_false, one_mul, hcast]

/-! ## Signs -/

theorem exists_signOf (σ : Sign) : ∃ s, σ = signOf s := ⟨σ == .negative, by cases σ <;> rfl⟩

theorem binaryValue_eq_apply (s : Bool) (m : Nat) (q : Int) :
    Binary.value ⟨s, m, q⟩ = ((signOf s).apply m : ℚ) * 2 ^ q := by
  cases s <;> simp [Binary.value, signOf, Sign.apply]

theorem Sign.apply_neg (σ : Sign) (n : Int) : (-σ).apply n = -σ.apply n := by
  cases σ
  · exact (neg_neg n).symm
  · rfl

theorem Sign.apply_mul (σ₁ σ₂ : Sign) (n₁ n₂ : Int) :
    (σ₁ * σ₂).apply (n₁ * n₂) = σ₁.apply n₁ * σ₂.apply n₂ := by
  cases σ₁ <;> cases σ₂
  · show n₁ * n₂ = -n₁ * -n₂
    ring
  · show -(n₁ * n₂) = -n₁ * n₂
    ring
  · show -(n₁ * n₂) = n₁ * -n₂
    ring
  · rfl

/-- A significand lowered from exponent `q` to `t` keeps its signed value. -/
theorem apply_lowered (σ : Sign) (m : Nat) {q t : Int} (h : t ≤ q) :
    ((σ.apply ((m * 2 ^ (q - t).toNat : ℕ) : ℤ) : ℤ) : ℚ) * 2 ^ t = (σ.apply m : ℚ) * 2 ^ q := by
  have hv := natCast_mul_two_pow_mul_zpow m (q - t).toNat q
  rw [show q - (((q - t).toNat : ℕ) : ℤ) = t by omega] at hv
  cases σ
  · simp only [Sign.apply, Int.cast_neg, Int.cast_natCast, neg_mul, hv]
  · simp only [Sign.apply, Int.cast_natCast, hv]

/-! ## What an operand denotes -/

/-- An unpacked float of the model that denotes the rational `a`: a zero for `0`, or a canonical
finite float. -/
def Denotes : UnpackedFloat → ℚ → Prop
  | .zero _, a => a = 0
  | .finite σ m q _, a => Canonical m q ∧ a = (σ.apply m : ℚ) * 2 ^ q
  | _, _ => False

/-- A double that denotes a rational unpacks to a float of the model that denotes it. -/
theorem denotes_classify {x : Float} {a : ℚ} (h : value x = some (ofRat a)) :
    Denotes (classify x).unpacked a := by
  have hcanon := canon_classify x
  unfold value at h
  rcases hc : classify x with _ | s | ⟨s, m, q⟩ <;> rw [hc] at h hcanon
  · exact absurd h (by simp [Classified.value])
  · cases s <;> simp only [Classified.value, Option.some.injEq, if_true, Bool.false_eq_true,
      if_false] at h
    exacts [ofRat_ne_top a h.symm, ofRat_ne_bot a h.symm]
  · simp only [Classified.value, Option.some.injEq, ofRat_inj] at h
    rcases Nat.eq_zero_or_pos m with rfl | hm
    · rw [unpacked_zero]
      show a = 0
      simp [← h, Binary.value]
    · rw [unpacked_finite hm.ne']
      exact ⟨hcanon hm.ne', by rw [← h, binaryValue_eq_apply]⟩

/-- A canonical significand and exponent pack a double that denotes their value. -/
theorem packedValue_canonical (s : Bool) {m : Nat} {q : Int} (hc : Canonical m q) :
    packedValue (.finite (signOf s) m q hc.pos) = some (roundExtended (Binary.value ⟨s, m, q⟩)) := by
  rw [packedValue_finite s hc.pos hc.lt hc.normal hc.min_le, roundExtended,
    roundNearest_binaryValue (b := ⟨s, m, q⟩) hc]

theorem packedValue_of_denotes {u : UnpackedFloat} {a : ℚ} (hu : Denotes u a) :
    packedValue u = some (roundExtended a) := by
  cases u with
  | zero z =>
    rw [show a = 0 from hu, roundExtended_zero]
    exact packedValue_zero z
  | finite σ m q hm =>
    obtain ⟨hc, rfl⟩ := hu
    obtain ⟨s, rfl⟩ := exists_signOf σ
    rw [← binaryValue_eq_apply]
    exact packedValue_canonical s hc
  | _ => exact hu.elim

/-! ## Sums, differences and products of finite operands -/

theorem value_add_eq (x y : Float) : value (x + y) =
    packedValue (UnpackedFloat.add Format.binary64 (classify x).unpacked (classify y).unpacked) := by
  rw [packedValue, ← unpack_toModel, ← unpack_toModel]
  rfl

theorem value_sub_eq (x y : Float) : value (x - y) =
    packedValue (UnpackedFloat.sub Format.binary64 (classify x).unpacked (classify y).unpacked) := by
  rw [packedValue, ← unpack_toModel, ← unpack_toModel]
  rfl

theorem value_mul_eq (x y : Float) : value (x * y) =
    packedValue (UnpackedFloat.mul Format.binary64 (classify x).unpacked (classify y).unpacked) := by
  rw [packedValue, ← unpack_toModel, ← unpack_toModel]
  rfl

/-- The model's sum packs the double nearest to the sum of what its operands denote. -/
theorem packedValue_add {u w : UnpackedFloat} {a b : ℚ} (hu : Denotes u a) (hw : Denotes w b) :
    packedValue (UnpackedFloat.add Format.binary64 u w) = some (roundExtended (a + b)) := by
  cases u with
  | zero z₁ =>
    cases w with
    | zero z₂ =>
      rw [show a = 0 from hu, show b = 0 from hw, add_zero, roundExtended_zero]
      simp only [UnpackedFloat.add]
      split_ifs <;> exact packedValue_zero _
    | finite σ m q hm =>
      rw [show a = 0 from hu, zero_add, ← packedValue_of_denotes hw]
      rfl
    | _ => exact hw.elim
  | finite σ₁ m₁ q₁ hm₁ =>
    cases w with
    | zero z₂ =>
      rw [show b = 0 from hw, add_zero, ← packedValue_of_denotes hu]
      rfl
    | finite σ₂ m₂ q₂ hm₂ =>
      obtain ⟨-, rfl⟩ := hu
      obtain ⟨-, rfl⟩ := hw
      -- both significands are lowered to the smaller exponent, added, and rounded
      simp only [UnpackedFloat.add, decreaseExponent_eq]
      rw [packedValue_normalize, Int.cast_add, add_mul, apply_lowered σ₁ m₁ (min_le_left q₁ q₂),
        apply_lowered σ₂ m₂ (min_le_right q₁ q₂)]
    | _ => exact hw.elim
  | _ => exact hu.elim

/-- The model's difference packs the double nearest to the difference of what its operands
denote. -/
theorem packedValue_sub {u w : UnpackedFloat} {a b : ℚ} (hu : Denotes u a) (hw : Denotes w b) :
    packedValue (UnpackedFloat.sub Format.binary64 u w) = some (roundExtended (a - b)) := by
  cases u with
  | zero z₁ =>
    cases w with
    | zero z₂ =>
      rw [show a = 0 from hu, show b = 0 from hw, sub_zero, roundExtended_zero]
      simp only [UnpackedFloat.sub]
      split_ifs <;> exact packedValue_zero _
    | finite σ m q hm =>
      -- a zero less a finite float is the float with its sign flipped
      obtain ⟨hc, rfl⟩ := hw
      have hneg : Denotes (.finite (-σ) m q hm) (-((σ.apply m : ℚ) * 2 ^ q)) :=
        ⟨hc, by rw [Sign.apply_neg, Int.cast_neg, neg_mul]⟩
      rw [show a = 0 from hu, zero_sub, ← packedValue_of_denotes hneg]
      rfl
    | _ => exact hw.elim
  | finite σ₁ m₁ q₁ hm₁ =>
    cases w with
    | zero z₂ =>
      rw [show b = 0 from hw, sub_zero, ← packedValue_of_denotes hu]
      rfl
    | finite σ₂ m₂ q₂ hm₂ =>
      obtain ⟨-, rfl⟩ := hu
      obtain ⟨-, rfl⟩ := hw
      simp only [UnpackedFloat.sub, decreaseExponent_eq]
      rw [packedValue_normalize, Int.cast_sub, sub_mul, apply_lowered σ₁ m₁ (min_le_left q₁ q₂),
        apply_lowered σ₂ m₂ (min_le_right q₁ q₂)]
    | _ => exact hw.elim
  | _ => exact hu.elim

/-- The exact product of two canonical significands needs no lowering before it is rounded: if it
has fewer than 53 bits, both factors are subnormal and the product's exponent is below the least. -/
theorem exponent_le_targetExponent_mul {m₁ m₂ : Nat} {q₁ q₂ : Int} (h₁ : Canonical m₁ q₁)
    (h₂ : Canonical m₂ q₂) :
    q₁ + q₂ ≤ Format.binary64.targetExponent (totalExponent (m₁ * m₂) (q₁ + q₂)) := by
  have hmin : Format.binary64.minExponent = minExponent := by decide
  have hbits : Format.binary64.mantissaBits = 53 := rfl
  simp only [Format.targetExponent, totalExponent, hmin, hbits, Nat.cast_ofNat]
  by_cases hn : 2 ^ 52 ≤ m₁ * m₂
  · have hl := (Nat.le_log2 (Nat.mul_pos h₁.pos h₂.pos).ne').mpr hn
    omega
  · have hle₁ : m₁ ≤ m₁ * m₂ := Nat.le_mul_of_pos_right m₁ h₂.pos
    have hle₂ : m₂ ≤ m₁ * m₂ := Nat.le_mul_of_pos_left m₂ h₁.pos
    have hsub₁ := h₁.normal.resolve_left (by omega)
    have hsub₂ := h₂.normal.resolve_left (by omega)
    simp only [minExponent] at hsub₁ hsub₂ ⊢
    omega

/-- The model's product packs the double nearest to the product of what its operands denote. -/
theorem packedValue_mul {u w : UnpackedFloat} {a b : ℚ} (hu : Denotes u a) (hw : Denotes w b) :
    packedValue (UnpackedFloat.mul Format.binary64 u w) = some (roundExtended (a * b)) := by
  cases u with
  | zero z₁ =>
    rw [show a = 0 from hu, zero_mul, roundExtended_zero]
    cases w with
    | zero z₂ => exact packedValue_zero _
    | finite σ m q hm => exact packedValue_zero _
    | _ => exact hw.elim
  | finite σ₁ m₁ q₁ hm₁ =>
    cases w with
    | zero z₂ =>
      rw [show b = 0 from hw, mul_zero, roundExtended_zero]
      exact packedValue_zero _
    | finite σ₂ m₂ q₂ hm₂ =>
      obtain ⟨hc₁, rfl⟩ := hu
      obtain ⟨hc₂, rfl⟩ := hw
      obtain ⟨s, hs⟩ := exists_signOf (σ₁ * σ₂)
      simp only [UnpackedFloat.mul]
      rw [hs, packedValue_roundWithAccuracy s (Nat.mul_pos hm₁ hm₂)
        (exponent_le_targetExponent_mul hc₁ hc₂), binaryValue_eq_apply, ← hs, Nat.cast_mul,
        Sign.apply_mul, zpow_add₀ two_ne_zero, Int.cast_mul]
      ring_nf
    | _ => exact hw.elim
  | _ => exact hu.elim

/-! ## Doubles -/

/-- The value of a double rounds to itself. -/
theorem roundExtended_of_value {x : Float} {v : ℚ} (h : value x = some (ofRat v)) :
    roundExtended v = ofRat v := by
  obtain ⟨⟨s, m, q⟩, hc, rfl⟩ := classify_of_value h
  rcases Nat.eq_zero_or_pos m with rfl | hm
  · have hv : Binary.value ⟨s, 0, q⟩ = 0 := by simp [Binary.value]
    rw [hv, roundExtended_zero]
  · have hcanon := canon_classify x
    rw [hc] at hcanon
    exact roundExtended_binaryValue (b := ⟨s, m, q⟩) (hcanon hm.ne')

/-- For finite doubles, `x + y` denotes the double nearest to the sum of their values. -/
theorem value_add {x y : Float} {a b : ℚ} (hx : value x = some (ofRat a))
    (hy : value y = some (ofRat b)) : value (x + y) = some (roundExtended (a + b)) := by
  rw [value_add_eq]
  exact packedValue_add (denotes_classify hx) (denotes_classify hy)

/-- For finite doubles, `x - y` denotes the double nearest to the difference of their values. -/
theorem value_sub {x y : Float} {a b : ℚ} (hx : value x = some (ofRat a))
    (hy : value y = some (ofRat b)) : value (x - y) = some (roundExtended (a - b)) := by
  rw [value_sub_eq]
  exact packedValue_sub (denotes_classify hx) (denotes_classify hy)

/-- For finite doubles, `x * y` denotes the double nearest to the product of their values. -/
theorem value_mul {x y : Float} {a b : ℚ} (hx : value x = some (ofRat a))
    (hy : value y = some (ofRat b)) : value (x * y) = some (roundExtended (a * b)) := by
  rw [value_mul_eq]
  exact packedValue_mul (denotes_classify hx) (denotes_classify hy)

end Backtest.Decimal
