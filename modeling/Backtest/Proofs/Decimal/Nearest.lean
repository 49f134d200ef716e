import Mathlib
import Backtest.Proofs.Decimal.Value
import Backtest.Proofs.Decimal.Rounding
/-!
# Rounding a rational to the nearest double

The double nearest to a rational `v` lies on the grid `2^t` of `v`'s binade: `t` is the binade's
exponent less 52, but never below the least exponent (`gridExponent`). On that grid `v` rounds
half to even (`roundEven`), which gives `roundNearest v`; from `2^1024` on the rounded value has
no double and overflows to an infinity (`roundExtended`). The main statements:

* `roundNearest_mono`, `roundExtended_mono`: rounding keeps order, across binades too, since a
  power of two is on the grid of every value below it;
* `roundNearest_value`, `roundNearest_intCast`: a double's own value, and a whole number up to
  `2^53`, round to themselves.
-/

namespace Backtest.Decimal

open Extended

/-! ## Half to even -/

/-- The integer nearest to `x`; of two at the same distance, the even one. -/
def roundEven (x : ℚ) : ℤ :=
  if 1 / 2 < Int.fract x ∨ (Int.fract x = 1 / 2 ∧ ⌊x⌋ % 2 = 1) then ⌊x⌋ + 1 else ⌊x⌋

theorem roundEven_intCast (n : ℤ) : roundEven n = n := by
  simp [roundEven]

theorem floor_le_roundEven (x : ℚ) : ⌊x⌋ ≤ roundEven x := by
  unfold roundEven
  split_ifs <;> omega

theorem roundEven_le_floor_add_one (x : ℚ) : roundEven x ≤ ⌊x⌋ + 1 := by
  unfold roundEven
  split_ifs <;> omega

/-- Rounding half to even keeps order. -/
theorem roundEven_mono {x y : ℚ} (h : x ≤ y) : roundEven x ≤ roundEven y := by
  rcases lt_or_eq_of_le (Int.floor_mono h) with hlt | heq
  · -- different whole parts: `x` rounds to at most `⌊x⌋ + 1 ≤ ⌊y⌋`
    have := roundEven_le_floor_add_one x
    have := floor_le_roundEven y
    omega
  · -- the same whole part: the fraction of `y` is at least that of `x`
    have hfr : Int.fract x ≤ Int.fract y := by
      rw [Int.fract, Int.fract, heq]
      linarith
    unfold roundEven
    rw [heq]
    split_ifs with hx hy
    · exact le_rfl
    · exfalso
      apply hy
      rcases hx with hx | ⟨hx, hodd⟩
      · exact .inl (lt_of_lt_of_le hx hfr)
      · rcases lt_or_eq_of_le (hx ▸ hfr) with h' | h'
        · exact .inl h'
        · exact .inr ⟨h'.symm, hodd⟩
    · omega
    · exact le_rfl

/-- Rounding half to even is odd: ties go to the even neighbour on either side of zero. -/
theorem roundEven_neg (x : ℚ) : roundEven (-x) = -roundEven x := by
  by_cases hf : Int.fract x = 0
  · -- a whole number
    obtain ⟨n, rfl⟩ : ∃ n : ℤ, x = n := ⟨⌊x⌋, by linarith [Int.floor_add_fract x]⟩
    rw [← Int.cast_neg, roundEven_intCast, roundEven_intCast]
  · -- otherwise `-x` has fraction `1 - f` and whole part `-⌊x⌋ - 1`
    have hf0 : 0 < Int.fract x := lt_of_le_of_ne (Int.fract_nonneg x) (Ne.symm hf)
    have hf1 := Int.fract_lt_one x
    have hfrac : Int.fract (-x) = 1 - Int.fract x := Int.fract_neg hf
    have hfloor : ⌊-x⌋ = -⌊x⌋ - 1 := by
      rw [Int.floor_eq_iff]
      have := Int.floor_add_fract x
      push_cast
      constructor <;> linarith
    unfold roundEven
    rw [hfrac, hfloor]
    -- only at a tie does the parity of the whole part decide
    rcases lt_trichotomy (Int.fract x) (1 / 2) with hlt | heq | hgt
    · rw [if_pos (.inl (by linarith)), if_neg (by rintro (h | ⟨h, -⟩) <;> linarith)]
      ring
    · by_cases hodd : ⌊x⌋ % 2 = 1
      · rw [if_neg (by rintro (h | ⟨-, h⟩) <;> [linarith; omega]), if_pos (.inr ⟨heq, hodd⟩)]
        ring
      · rw [if_pos (.inr ⟨by linarith, by omega⟩), if_neg (by rintro (h | ⟨-, h⟩) <;> [linarith; omega])]
        ring
    · rw [if_neg (by rintro (h | ⟨h, -⟩) <;> linarith), if_pos (.inl hgt)]
      ring

/-! ## The grid of a binade -/

/-- The exponent of the grid that `v` rounds on: that of `v`'s binade less 52, so that the grid
carries 53 significant bits, but never below the least exponent. -/
def gridExponent (v : ℚ) : ℤ := max (Int.log 2 |v| - 52) minExponent

/-- The value of the double nearest to `v`, ties to an even significand, before overflow. -/
def roundNearest (v : ℚ) : ℚ := roundEven (v / 2 ^ gridExponent v) * 2 ^ gridExponent v

theorem gridExponent_neg (v : ℚ) : gridExponent (-v) = gridExponent v := by
  simp [gridExponent]

theorem roundNearest_neg (v : ℚ) : roundNearest (-v) = -roundNearest v := by
  simp only [roundNearest, gridExponent_neg, neg_div, roundEven_neg, Int.cast_neg, neg_mul]

theorem roundNearest_zero : roundNearest 0 = 0 := by
  simp [roundNearest, show roundEven 0 = 0 from roundEven_intCast 0]

/-- A value at most a point of its own grid rounds to at most that point. -/
theorem roundNearest_le_of_le_grid {v : ℚ} {n : ℤ} (h : v ≤ n * 2 ^ gridExponent v) :
    roundNearest v ≤ n * 2 ^ gridExponent v := by
  have hp := two_zpow_pos (gridExponent v)
  have hn : roundEven (v / 2 ^ gridExponent v) ≤ n := by
    calc roundEven (v / 2 ^ gridExponent v) ≤ roundEven n :=
          roundEven_mono (by rwa [div_le_iff₀ hp])
      _ = n := roundEven_intCast n
  exact mul_le_mul_of_nonneg_right (by exact_mod_cast hn) hp.le

/-- A value at least a point of its own grid rounds to at least that point. -/
theorem le_roundNearest_of_grid_le {v : ℚ} {n : ℤ} (h : n * 2 ^ gridExponent v ≤ v) :
    n * 2 ^ gridExponent v ≤ roundNearest v := by
  have hp := two_zpow_pos (gridExponent v)
  have hn : n ≤ roundEven (v / 2 ^ gridExponent v) := by
    calc n = roundEven n := (roundEven_intCast n).symm
      _ ≤ roundEven (v / 2 ^ gridExponent v) := roundEven_mono (by rwa [le_div_iff₀ hp])
  exact mul_le_mul_of_nonneg_right (by exact_mod_cast hn) hp.le

/-- A power of two at or above a grid is a point of it. -/
theorem two_zpow_eq_grid {t k : ℤ} (h : t ≤ k) :
    (2 : ℚ) ^ k = ((2 ^ (k - t).toNat : ℤ) : ℚ) * 2 ^ t := by
  push_cast
  rw [← zpow_natCast, ← zpow_add₀ (by norm_num)]
  congr 1
  omega

theorem roundNearest_nonneg {v : ℚ} (hv : 0 ≤ v) : 0 ≤ roundNearest v := by
  simpa using le_roundNearest_of_grid_le (v := v) (n := 0) (by simpa using hv)

theorem roundNearest_nonpos {v : ℚ} (hv : v ≤ 0) : roundNearest v ≤ 0 := by
  have := roundNearest_nonneg (neg_nonneg.mpr hv)
  rw [roundNearest_neg] at this
  linarith

/-- Rounding keeps the order of nonnegative values. On one grid it is rounding half to even;
across grids the power of two that starts the larger binade lies on both grids and separates
the two values, and both roundings keep it between them. -/
theorem roundNearest_mono_of_nonneg {v w : ℚ} (hv : 0 ≤ v) (h : v ≤ w) :
    roundNearest v ≤ roundNearest w := by
  rcases eq_or_lt_of_le hv with rfl | hv
  · rw [roundNearest_zero]
    exact roundNearest_nonneg h
  have hw : 0 < w := lt_of_lt_of_le hv h
  have hL : Int.log 2 |v| ≤ Int.log 2 |w| :=
    Int.log_mono_right (abs_pos.mpr hv.ne') (by rwa [abs_of_pos hv, abs_of_pos hw])
  have hg : gridExponent v ≤ gridExponent w := by
    unfold gridExponent
    omega
  rcases eq_or_lt_of_le hg with heq | hlt
  · -- one grid
    have hp := two_zpow_pos (gridExponent v)
    unfold roundNearest
    rw [← heq]
    exact mul_le_mul_of_nonneg_right
      (by exact_mod_cast roundEven_mono (div_le_div_of_nonneg_right h hp.le)) hp.le
  · -- the binade of `w` starts at `2^L`, above `v` and on both grids
    set L := Int.log 2 |w| with hLdef
    have hgw : gridExponent w = L - 52 := by
      simp only [gridExponent, minExponent] at hlt ⊢
      omega
    have hLv : Int.log 2 |v| < L := by
      by_contra hge
      simp only [gridExponent] at hlt
      omega
    have hvL : v ≤ 2 ^ L := by
      have := Int.lt_zpow_succ_log_self (b := 2) (by norm_num) |v|
      calc v = |v| := (abs_of_pos hv).symm
        _ ≤ (2 : ℚ) ^ (Int.log 2 |v| + 1) := by exact_mod_cast this.le
        _ ≤ 2 ^ L := zpow_le_zpow_right₀ (by norm_num) (by omega)
    have hLw : (2 : ℚ) ^ L ≤ w := by
      have := Int.zpow_log_le_self (b := 2) (by norm_num) (abs_pos.mpr hw.ne')
      calc (2 : ℚ) ^ L ≤ |w| := by exact_mod_cast this
        _ = w := abs_of_pos hw
    have hgv : gridExponent v ≤ L := by omega
    calc roundNearest v ≤ 2 ^ L := by
          rw [two_zpow_eq_grid hgv] at hvL ⊢
          exact roundNearest_le_of_le_grid hvL
      _ ≤ roundNearest w := by
          have hgw' : gridExponent w ≤ L := by omega
          rw [two_zpow_eq_grid hgw'] at hLw ⊢
          exact le_roundNearest_of_grid_le hLw

/-- Rounding to the nearest double keeps order. -/
theorem roundNearest_mono {v w : ℚ} (h : v ≤ w) : roundNearest v ≤ roundNearest w := by
  rcases le_total 0 v with hv | hv
  · exact roundNearest_mono_of_nonneg hv h
  rcases le_total 0 w with hw | hw
  · linarith [roundNearest_nonpos hv, roundNearest_nonneg hw]
  · -- two nonpositive values: the mirror image of two nonnegative ones
    have := roundNearest_mono_of_nonneg (neg_nonneg.mpr hw) (neg_le_neg h)
    rw [roundNearest_neg, roundNearest_neg] at this
    linarith

/-! ## Overflow -/

/-- A rounded value as an extended rational: from `2^1024` on there is no double for it, and it
overflows to the infinity of its sign. -/
def Extended.ofRounded (r : ℚ) : Extended :=
  if 2 ^ 1024 ≤ r then ⊤ else if r ≤ -2 ^ 1024 then ⊥ else ofRat r

theorem Extended.ofRounded_mono {r r' : ℚ} (h : r ≤ r') : ofRounded r ≤ ofRounded r' := by
  unfold ofRounded
  have hB : (0 : ℚ) < 2 ^ 1024 := by positivity
  generalize (2 : ℚ) ^ 1024 = B at hB ⊢
  by_cases htop : B ≤ r'
  · rw [if_pos htop]
    exact le_top
  by_cases hbot : r ≤ -B
  · rw [if_neg (by linarith), if_pos hbot]
    exact bot_le
  rw [if_neg (by linarith), if_neg hbot, if_neg htop, if_neg (by linarith)]
  exact ofRat_le_ofRat.mpr h

/-- The value of the double nearest to `v`, with overflow to the infinities. -/
def roundExtended (v : ℚ) : Extended := Extended.ofRounded (roundNearest v)

/-- Rounding to the nearest double, overflow included, keeps order. -/
theorem roundExtended_mono {v w : ℚ} (h : v ≤ w) : roundExtended v ≤ roundExtended w :=
  Extended.ofRounded_mono (roundNearest_mono h)

/-! ## Values that round to themselves -/

/-- A point of its own grid rounds to itself. -/
theorem roundNearest_eq_self {v : ℚ} {n : ℤ} (h : v = n * 2 ^ gridExponent v) :
    roundNearest v = v := by
  have hq : v / 2 ^ gridExponent v = n := by
    rw [div_eq_iff (two_zpow_pos _).ne']
    exact h
  rw [roundNearest, hq, roundEven_intCast, ← h]

theorem roundExtended_of_lt {v : ℚ} (h : |roundNearest v| < 2 ^ 1024) :
    roundExtended v = ofRat (roundNearest v) := by
  rw [abs_lt] at h
  unfold roundExtended Extended.ofRounded
  rw [if_neg (not_le.mpr h.2), if_neg (not_le.mpr h.1)]

theorem roundExtended_zero : roundExtended 0 = ofRat 0 := by
  rw [roundExtended_of_lt] <;> rw [roundNearest_zero]
  simp

/-- The binade of a significand and exponent: the bit length of the significand, less one, plus
the exponent. -/
theorem int_log_natCast_mul_two_zpow {m : Nat} (hm : 0 < m) (q : Int) :
    Int.log 2 ((m : ℚ) * 2 ^ q) = Nat.log2 m + q := by
  have h1 : ((2 ^ Nat.log2 m : ℕ) : ℚ) ≤ m := by exact_mod_cast Nat.log2_self_le hm.ne'
  have h2 : (m : ℚ) < ((2 ^ (Nat.log2 m + 1) : ℕ) : ℚ) := by exact_mod_cast Nat.lt_log2_self
  push_cast at h1 h2
  have hp := two_zpow_pos q
  apply int_log_eq_of_bracket (by norm_num) (by positivity)
  · rw [Nat.cast_ofNat, zpow_add₀ two_ne_zero, zpow_natCast]
    exact mul_le_mul_of_nonneg_right h1 hp.le
  · rw [Nat.cast_ofNat, add_right_comm, zpow_add₀ two_ne_zero, ← Nat.cast_succ, zpow_natCast]
    exact mul_lt_mul_of_pos_right h2 hp

theorem abs_binaryValue (b : Binary) : |b.value| = b.significand * 2 ^ b.exponent := by
  have : (0 : ℚ) ≤ b.significand * 2 ^ b.exponent := by positivity
  unfold Binary.value
  split_ifs <;> simp [abs_of_nonneg this]

/-- A canonical double rounds on the grid of its own exponent. -/
theorem gridExponent_binaryValue {b : Binary} (hc : Canonical b.significand b.exponent) :
    gridExponent b.value = b.exponent := by
  have hlt : Nat.log2 b.significand < 53 := (Nat.log2_lt hc.pos.ne').mpr hc.lt
  have hnorm : 52 ≤ Nat.log2 b.significand ∨ b.exponent = minExponent :=
    hc.normal.imp (fun h => (Nat.le_log2 hc.pos.ne').mpr h) id
  have hmin := hc.min_le
  rw [gridExponent, abs_binaryValue, int_log_natCast_mul_two_zpow hc.pos]
  simp only [minExponent] at hnorm hmin ⊢
  omega

/-- A finite double's own value is a point of its grid. -/
theorem roundNearest_binaryValue {b : Binary} (hc : Canonical b.significand b.exponent) :
    roundNearest b.value = b.value := by
  apply roundNearest_eq_self (n := if b.negative then -(b.significand : ℤ) else b.significand)
  rw [gridExponent_binaryValue hc, Binary.value]
  split_ifs <;> push_cast <;> ring

/-- A finite double's own value rounds to itself. -/
theorem roundExtended_binaryValue {b : Binary} (hc : Canonical b.significand b.exponent) :
    roundExtended b.value = ofRat b.value := by
  have hself := roundNearest_binaryValue hc
  -- the largest double is below `2^53 · 2^971 = 2^1024`
  have hbound : |b.value| < 2 ^ 1024 := by
    have hm : (b.significand : ℚ) < 2 ^ 53 := by exact_mod_cast hc.lt
    have hq : (2 : ℚ) ^ b.exponent ≤ 2 ^ (971 : ℤ) :=
      zpow_le_zpow_right₀ (by norm_num) (by have := hc.le_max; simp only [maxExponent] at this; omega)
    calc |b.value| = b.significand * 2 ^ b.exponent := abs_binaryValue b
      _ < 2 ^ 53 * 2 ^ b.exponent := mul_lt_mul_of_pos_right hm (two_zpow_pos _)
      _ ≤ 2 ^ 53 * 2 ^ (971 : ℤ) := mul_le_mul_of_nonneg_left hq (by positivity)
      _ = 2 ^ 1024 := by
        rw [← zpow_natCast, ← zpow_add₀ two_ne_zero, ← zpow_natCast]
        norm_num
  rw [roundExtended_of_lt (by rwa [hself]), hself]

/-- A whole number below `2^53` rounds to itself: its grid is at most `2^0`. -/
theorem roundNearest_intCast {n : ℤ} (hn : |n| < 2 ^ 53) : roundNearest n = n := by
  rcases eq_or_ne n 0 with rfl | hn0
  · simpa using roundNearest_zero
  have hpos : (0 : ℚ) < |(n : ℚ)| := abs_pos.mpr (by exact_mod_cast hn0)
  have hlog : Int.log 2 |(n : ℚ)| < 53 := by
    have : |(n : ℚ)| < (2 : ℕ) ^ (53 : ℤ) := by push_cast; exact_mod_cast hn
    exact (Int.lt_zpow_iff_log_lt (by norm_num) hpos).mp this
  have hg : gridExponent n ≤ 0 := by
    unfold gridExponent
    simp only [minExponent]
    omega
  apply roundNearest_eq_self (n := n * 2 ^ (-gridExponent n).toNat)
  push_cast
  rw [mul_assoc, ← zpow_natCast, ← zpow_add₀ two_ne_zero,
    show (((-gridExponent n).toNat : ℕ) : ℤ) + gridExponent n = 0 by omega, zpow_zero, mul_one]

theorem roundExtended_intCast {n : ℤ} (hn : |n| < 2 ^ 53) : roundExtended n = ofRat n := by
  have hq : |(n : ℚ)| < 2 ^ 53 := by exact_mod_cast hn
  rw [roundExtended_of_lt, roundNearest_intCast hn]
  rw [roundNearest_intCast hn]
  calc |(n : ℚ)| < 2 ^ 53 := hq
    _ ≤ 2 ^ 1024 := pow_le_pow_right₀ (by norm_num) (by norm_num)

end Backtest.Decimal
