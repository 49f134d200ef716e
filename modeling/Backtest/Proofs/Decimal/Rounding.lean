import Mathlib
import Backtest.Decimal.Read
import Backtest.Decimal.Fixed
import Backtest.Decimal.Shortest
import Backtest.Proofs.Decimal.Bits
/-!
# Rounding a ratio to the nearest double

`nearestBits n d` rounds the positive ratio `n / d` to a double: it takes the binade of the
ratio (`floorLog2Ratio`, which is `⌊log₂ (n / d)⌋`: `floorLog2Ratio_eq`), rounds the ratio on
that binade's grid half to even, and carries into the next binade when the significand
reaches `2^53`.

`RoundsTo m q r` says that `r` lies in the rounding interval of the double `m · 2^q`: between
the midpoints to its two neighbours, the midpoints included when `m` is even. The main
statement, `nearestBits_of_roundsTo`, is that every ratio in that interval rounds to the bits
of `m · 2^q`. It is what makes a printed decimal that lies in the interval read back as the
double it was printed from. Since the grid is taken from the ratio's binade, the rounded
significand has at most 53 bits, so a decimal read without a minus sign gives a double whose
sign bit is clear (`readFloat_toBits_lt`).
-/

namespace Backtest.Decimal

/-! ## Round half to even -/

/-- A ratio is its whole part plus the fraction its remainder leaves. -/
theorem ratio_eq_div_add_mod (num : Nat) {den : Nat} (hden : 0 < den) :
    (num : ℚ) / den = (num / den : Nat) + ((num % den : Nat) : ℚ) / den := by
  have hdq : (den : ℚ) ≠ 0 := by exact_mod_cast hden.ne'
  have e : (num : ℚ) = den * (num / den : Nat) + (num % den : Nat) := by
    exact_mod_cast (Nat.div_add_mod num den).symm
  rw [e]
  field_simp

/-- The fraction `R / den` against one half, in whole numbers. -/
theorem half_lt_div_iff {R den : Nat} (hden : 0 < den) : den < 2 * R ↔ (1 : ℚ) / 2 < R / den := by
  rw [div_lt_div_iff₀ (by norm_num) (by exact_mod_cast hden), one_mul]
  norm_cast
  omega

theorem div_eq_half_iff {R den : Nat} (hden : 0 < den) : 2 * R = den ↔ (R : ℚ) / den = 1 / 2 := by
  rw [div_eq_div_iff (by exact_mod_cast hden.ne') two_ne_zero, one_mul]
  norm_cast
  omega

/-- A ratio within one half of `M` (one half exactly only when `M` is even) rounds half to even
to `M`. -/
theorem roundHalfEven_eq_of_near {num den M : Nat} (hden : 0 < den)
    (hlo : (M : ℚ) - 1 / 2 < num / den ∨ ((M : ℚ) - 1 / 2 = num / den ∧ M % 2 = 0))
    (hhi : (num : ℚ) / den < M + 1 / 2 ∨ ((num : ℚ) / den = M + 1 / 2 ∧ M % 2 = 0)) :
    roundHalfEven num den = M := by
  -- split the ratio into its whole part `Q` and the fraction `R / den` left over
  set Q := num / den with hQ
  set R := num % den with hR
  have hdq : (0 : ℚ) < den := by exact_mod_cast hden
  have ht0 : (0 : ℚ) ≤ R / den := by positivity
  have ht1 : (R : ℚ) / den < 1 := by
    rw [div_lt_one hdq]
    exact_mod_cast Nat.mod_lt _ hden
  rw [ratio_eq_div_add_mod num hden] at hlo hhi
  -- the whole part is `M` or `M - 1`
  have hQle : Q ≤ M := by
    have : (Q : ℚ) < M + 1 := by rcases hhi with h | ⟨h, -⟩ <;> linarith
    have : Q < M + 1 := by exact_mod_cast this
    omega
  have hQge : M ≤ Q + 1 := by
    have : (M : ℚ) < Q + 2 := by rcases hlo with h | ⟨h, -⟩ <;> linarith
    have : M < Q + 2 := by exact_mod_cast this
    omega
  unfold roundHalfEven
  simp only [← hQ, ← hR]
  rcases Nat.lt_or_ge Q M with hlt | hge
  · -- `Q = M - 1`: the fraction is at least one half and the rounding goes up
    have hQM : Q + 1 = M := by omega
    have hM : (M : ℚ) = Q + 1 := by exact_mod_cast hQM.symm
    rw [if_pos]
    · exact hQM
    rcases hlo with h | ⟨h, hev⟩
    · left; exact (half_lt_div_iff hden).mpr (by linarith)
    · right; exact ⟨(div_eq_half_iff hden).mpr (by linarith), by omega⟩
  · -- `Q = M`: the fraction is at most one half and a tie stays at the even `M`
    have hQM : Q = M := le_antisymm hQle hge
    have hM : (M : ℚ) = Q := by exact_mod_cast hQM.symm
    rw [if_neg]
    · exact hQM
    rintro (h | ⟨h, hodd⟩)
    · have := (half_lt_div_iff hden).mp h
      rcases hhi with h' | ⟨h', -⟩ <;> linarith
    · rcases hhi with h' | ⟨h', hev⟩
      · have := (div_eq_half_iff hden).mp h; linarith
      · omega

/-! ## The binade of a ratio -/

/-- `Int.log` is pinned by the two powers around its argument. -/
theorem int_log_eq_of_bracket {b : Nat} (hb : 1 < b) {r : ℚ} (hr : 0 < r) {t : Int}
    (h1 : (b : ℚ) ^ t ≤ r) (h2 : r < (b : ℚ) ^ (t + 1)) : Int.log b r = t := by
  have a := (Int.zpow_le_iff_le_log hb hr).mp h1
  have c := (Int.lt_zpow_iff_log_lt hb hr).mp h2
  omega

/-- The comparison `floorLog2Ratio` makes, read in the rationals. -/
theorem ratio_lt_two_zpow_iff (n d : Nat) (hd : 0 < d) (l : Int) :
    (if l ≥ 0 then n < d * Nat.pow 2 l.toNat else n * Nat.pow 2 (-l).toNat < d) ↔
      (n : ℚ) / d < 2 ^ l := by
  have hdq : (0 : ℚ) < d := by exact_mod_cast hd
  rw [div_lt_iff₀ hdq]
  split
  · rename_i hl
    obtain ⟨k, rfl⟩ := Int.eq_ofNat_of_zero_le hl
    simp only [Int.toNat_natCast, Nat.pow_eq, zpow_natCast]
    rw [mul_comm]; exact_mod_cast Iff.rfl
  · rename_i hl
    obtain ⟨k, hk⟩ : ∃ k : Nat, l = -(k : Int) := ⟨(-l).toNat, by omega⟩
    subst hk
    simp only [neg_neg, Int.toNat_natCast, Nat.pow_eq, zpow_neg, zpow_natCast]
    have h2 : (0 : ℚ) < 2 ^ k := by positivity
    rw [← div_eq_inv_mul, lt_div_iff₀ h2]
    exact_mod_cast Iff.rfl

/-- Powers of two around a ratio from the binary lengths of its two parts. -/
theorem ratio_bracket {n d : Nat} (hn : 0 < n) (hd : 0 < d) :
    (2 : ℚ) ^ ((Nat.log2 n : Int) - Nat.log2 d - 1) < (n : ℚ) / d ∧
      (n : ℚ) / d < (2 : ℚ) ^ ((Nat.log2 n : Int) - Nat.log2 d + 1) := by
  have hdq : (0 : ℚ) < d := by exact_mod_cast hd
  have n1 : ((2 ^ Nat.log2 n : Nat) : ℚ) ≤ n := by exact_mod_cast Nat.log2_self_le (by omega)
  have n2 : (n : ℚ) < ((2 ^ (Nat.log2 n + 1) : Nat) : ℚ) := by exact_mod_cast Nat.lt_log2_self
  have d1 : ((2 ^ Nat.log2 d : Nat) : ℚ) ≤ d := by exact_mod_cast Nat.log2_self_le (by omega)
  have d2 : (d : ℚ) < ((2 ^ (Nat.log2 d + 1) : Nat) : ℚ) := by exact_mod_cast Nat.lt_log2_self
  push_cast at n1 n2 d1 d2
  have e1 : (2 : ℚ) ^ ((Nat.log2 n : Int) - Nat.log2 d - 1) = 2 ^ Nat.log2 n / 2 ^ (Nat.log2 d + 1) := by
    rw [show (Nat.log2 n : Int) - Nat.log2 d - 1 = (Nat.log2 n : Int) - ((Nat.log2 d + 1 : Nat) : Int) by
      push_cast; ring, zpow_sub₀ (by norm_num), zpow_natCast, zpow_natCast]
  have e2 : (2 : ℚ) ^ ((Nat.log2 n : Int) - Nat.log2 d + 1) = 2 ^ (Nat.log2 n + 1) / 2 ^ Nat.log2 d := by
    rw [show (Nat.log2 n : Int) - Nat.log2 d + 1 = ((Nat.log2 n + 1 : Nat) : Int) - (Nat.log2 d : Int) by
      push_cast; ring, zpow_sub₀ (by norm_num), zpow_natCast, zpow_natCast]
  rw [e1, e2]
  constructor
  · rw [div_lt_div_iff₀ (by positivity) hdq]
    calc (2 : ℚ) ^ Nat.log2 n * d ≤ n * d := by gcongr
      _ < n * 2 ^ (Nat.log2 d + 1) := by gcongr
  · rw [div_lt_div_iff₀ hdq (by positivity)]
    calc (n : ℚ) * 2 ^ Nat.log2 d ≤ n * d := by gcongr
      _ < 2 ^ (Nat.log2 n + 1) * d := by gcongr

theorem floorLog2Ratio_eq {n d : Nat} (hn : 0 < n) (hd : 0 < d) :
    floorLog2Ratio n d = Int.log 2 ((n : ℚ) / d) := by
  have hr : (0 : ℚ) < (n : ℚ) / d := by positivity
  obtain ⟨lo, hi⟩ := ratio_bracket hn hd
  unfold floorLog2Ratio
  dsimp only
  have hbelow := ratio_lt_two_zpow_iff n d hd ((Nat.log2 n : Int) - Nat.log2 d)
  by_cases h : (n : ℚ) / d < 2 ^ ((Nat.log2 n : Int) - Nat.log2 d)
  · rw [if_pos (hbelow.mpr h)]
    refine (int_log_eq_of_bracket (b := 2) (by decide) hr ?_ ?_).symm
    · exact_mod_cast le_of_lt lo
    · rw [sub_add_cancel]; exact_mod_cast h
  · rw [if_neg (mt hbelow.mp h)]
    rw [not_lt] at h
    exact (int_log_eq_of_bracket (b := 2) (by decide) hr (by exact_mod_cast h)
      (by exact_mod_cast hi)).symm


/-! ## The rounding interval of a double -/

/-- The ratio `r` reads back as the double `m · 2^q`. In units of `2^(q-2)` the double is `4m`,
the midpoint to the neighbour below is `lowerEnd m q` and the one above is `4m + 2`; the
midpoints belong to the interval when `m` is even, as a tie rounds to the even significand. -/
structure RoundsTo (m : Nat) (q : Int) (r : ℚ) : Prop where
  above : (lowerEnd m q : ℚ) * 2 ^ (q - 2) < r ∨
    ((lowerEnd m q : ℚ) * 2 ^ (q - 2) = r ∧ m % 2 = 0)
  below : r < (4 * m + 2 : ℚ) * 2 ^ (q - 2) ∨ (r = (4 * m + 2 : ℚ) * 2 ^ (q - 2) ∧ m % 2 = 0)

/-- The ratio `nearestBits` divides, for the grid `2^e`. -/
theorem scaled_ratio (n d : Nat) (e : Int) :
    ((n * Nat.pow 2 (-e).toNat : Nat) : ℚ) / ((d * Nat.pow 2 e.toNat : Nat) : ℚ) = n / d / 2 ^ e := by
  push_cast
  simp only [Nat.pow_eq, Nat.cast_pow, Nat.cast_ofNat]
  rcases le_total 0 e with he | he
  · obtain ⟨k, rfl⟩ := Int.eq_ofNat_of_zero_le he
    simp [zpow_natCast, div_div]
  · obtain ⟨k, hk⟩ : ∃ k : Nat, e = -(k : Int) := ⟨(-e).toNat, by omega⟩
    subst hk
    simp [zpow_neg, zpow_natCast, div_inv_eq_mul, mul_div_right_comm]

theorem lowerEnd_cast {m : Nat} (hm : 0 < m) (q : Int) :
    (lowerEnd m q : ℚ) =
      if m = 2 ^ 52 ∧ q > minExponent then 4 * (m : ℚ) - 1 else 4 * (m : ℚ) - 2 := by
  unfold lowerEnd
  simp only [Nat.pow_eq]
  split <;> push_cast [show 1 ≤ 4 * m by omega, show 2 ≤ 4 * m by omega] <;> ring

theorem two_zpow_pos (t : Int) : (0 : ℚ) < 2 ^ t := zpow_pos (by norm_num) t

/-- A power of two `2^(q + k)` in units of `2^(q - 2)`. -/
theorem two_zpow_add_eq (q : Int) (k : Nat) : (2 : ℚ) ^ (q + k) = 2 ^ (k + 2) * 2 ^ (q - 2) := by
  rw [show q + k = ((k + 2 : Nat) : Int) + (q - 2) by push_cast; ring, zpow_add₀ (by norm_num),
    zpow_natCast]

section RoundsTo
variable {m : Nat} {q : Int} {r : ℚ}

theorem RoundsTo.lower_le (hr : RoundsTo m q r) : (lowerEnd m q : ℚ) * 2 ^ (q - 2) ≤ r := by
  rcases hr.above with h | ⟨h, -⟩
  · exact le_of_lt h
  · exact le_of_eq h

theorem RoundsTo.le_upper (hr : RoundsTo m q r) : r ≤ (4 * m + 2 : ℚ) * 2 ^ (q - 2) := by
  rcases hr.below with h | ⟨h, -⟩
  · exact le_of_lt h
  · exact le_of_eq h

/-- The lower end is never below `4m - 2`, so `m - 1/2` (in units of `2^q`) bounds every value
that rounds to `m`, strictly unless `m` is even. -/
theorem RoundsTo.half_below (hm : 0 < m) (hr : RoundsTo m q r) :
    (4 * m - 2 : ℚ) * 2 ^ (q - 2) < r ∨ ((4 * m - 2 : ℚ) * 2 ^ (q - 2) = r ∧ m % 2 = 0) := by
  have hu := two_zpow_pos (q - 2)
  rcases hr.above with h | ⟨h, hev⟩ <;> rw [lowerEnd_cast hm] at h <;> split_ifs at h
  · left; nlinarith
  · left; exact h
  · left; nlinarith
  · right; exact ⟨h, hev⟩

theorem RoundsTo.pos (hm : 0 < m) (hr : RoundsTo m q r) : 0 < r := by
  have hu := two_zpow_pos (q - 2)
  have h1 : (1 : ℚ) ≤ m := by exact_mod_cast hm
  rcases hr.half_below hm with h | ⟨h, -⟩ <;> nlinarith

/-- The binade `nearestBits` picks for a value that rounds to `m · 2^q`: the exponent is `q`,
except just below a power of two, where the value lies in the binade under it. -/
theorem RoundsTo.exponent (hc : Canonical m q) (hr : RoundsTo m q r) :
    max (Int.log 2 r - 52) minExponent = q ∨
      (m = 2 ^ 52 ∧ max (Int.log 2 r - 52) minExponent = q - 1 ∧ r < 2 ^ (q + 52)) := by
  have hu := two_zpow_pos (q - 2)
  have hrpos := hr.pos hc.pos
  have hmq : (m : ℚ) + 1 ≤ 2 ^ 53 := by exact_mod_cast hc.lt
  have hmin := hc.min_le
  have hup : r < 2 ^ (q + (53 : Nat)) := by
    rw [two_zpow_add_eq]
    calc r ≤ (4 * m + 2 : ℚ) * 2 ^ (q - 2) := hr.le_upper
      _ < 2 ^ (53 + 2) * 2 ^ (q - 2) := by gcongr; norm_num at hmq ⊢; linarith
  have hL := (Int.lt_zpow_iff_log_lt (b := 2) (by decide) hrpos).mp (by exact_mod_cast hup)
  by_cases hbig : (2 : ℚ) ^ (q + (52 : Nat)) ≤ r
  · left
    have := (Int.zpow_le_iff_le_log (b := 2) (by decide) hrpos).mp (by exact_mod_cast hbig)
    omega
  · rw [not_le] at hbig
    have hL' := (Int.lt_zpow_iff_log_lt (b := 2) (by decide) hrpos).mp (by exact_mod_cast hbig)
    by_cases hq : q = minExponent
    · left; omega
    · right
      -- above the least exponent the significand has its leading bit set; it must be the
      -- least such significand, or its lower end would already pass `2^(q+52)`
      have hnorm : 2 ^ 52 ≤ m := hc.normal.resolve_right hq
      have hlow := hr.lower_le
      rw [lowerEnd_cast hc.pos] at hlow
      have hbig' := hbig
      rw [two_zpow_add_eq] at hbig'
      have hm52 : m = 2 ^ 52 := by
        by_contra hne
        have h1 : (4503599627370497 : ℚ) ≤ m := by
          exact_mod_cast (show 4503599627370497 ≤ m by omega)
        have hkey : (2 ^ (52 + 2) : ℚ) * 2 ^ (q - 2) < (4 * m - 2) * 2 ^ (q - 2) :=
          mul_lt_mul_of_pos_right (by norm_num; linarith) hu
        split_ifs at hlow <;> linarith
      have hqmin : q > minExponent := lt_of_le_of_ne hmin (Ne.symm hq)
      rw [if_pos ⟨hm52, hqmin⟩] at hlow
      have hge : (2 : ℚ) ^ (q + (51 : Nat)) ≤ r := by
        rw [two_zpow_add_eq]
        have : (m : ℚ) = 2 ^ 52 := by exact_mod_cast hm52
        rw [this] at hlow
        have hkey : (2 ^ (51 + 2) : ℚ) * 2 ^ (q - 2) ≤ (4 * 2 ^ 52 - 1) * 2 ^ (q - 2) :=
          mul_le_mul_of_nonneg_right (by norm_num) hu.le
        linarith
      have := (Int.zpow_le_iff_le_log (b := 2) (by decide) hrpos).mp (by exact_mod_cast hge)
      exact ⟨hm52, by simp only [minExponent] at hqmin ⊢; omega, by exact_mod_cast hbig⟩

/-- On the grid `2^q` a value that rounds to `m · 2^q` rounds half to even to `m`. -/
theorem RoundsTo.roundHalfEven_significand {n d : Nat} (hm : 0 < m) (hd : 0 < d)
    (hr : RoundsTo m q ((n : ℚ) / d)) :
    Decimal.roundHalfEven (n * Nat.pow 2 (-q).toNat) (d * Nat.pow 2 q.toNat) = m := by
  have hu := two_zpow_pos (q - 2)
  have hq : (2 : ℚ) ^ q = 4 * 2 ^ (q - 2) := by
    have := two_zpow_add_eq q 0
    norm_num at this
    exact this
  have hden : 0 < d * Nat.pow 2 q.toNat := Nat.mul_pos hd (Nat.pow_pos (by norm_num))
  apply roundHalfEven_eq_of_near hden
  · rw [scaled_ratio, lt_div_iff₀ (two_zpow_pos q), eq_div_iff (two_zpow_pos q).ne', hq]
    rcases hr.half_below hm with h | ⟨h, hev⟩
    · left; linarith
    · right; exact ⟨by linarith, hev⟩
  · rw [scaled_ratio, div_lt_iff₀ (two_zpow_pos q), div_eq_iff (two_zpow_pos q).ne', hq]
    rcases hr.below with h | ⟨h, hev⟩
    · left; linarith
    · right; exact ⟨by linarith, hev⟩

/-- Just below `2^(q+52)`, on the grid `2^(q-1)` of the binade under it, a value that rounds to
`2^52 · 2^q` rounds half to even up to `2^53`. -/
theorem RoundsTo.roundHalfEven_carry {n d : Nat} (hd : 0 < d) (hm : m = 2 ^ 52)
    (hq : q > minExponent) (hr : RoundsTo m q ((n : ℚ) / d)) (hbelow : (n : ℚ) / d < 2 ^ (q + 52)) :
    Decimal.roundHalfEven (n * Nat.pow 2 (-(q - 1)).toNat) (d * Nat.pow 2 (q - 1).toNat) =
      2 ^ 53 := by
  have hu := two_zpow_pos (q - 2)
  have hq1 : (2 : ℚ) ^ (q - 1) = 2 * 2 ^ (q - 2) := by
    rw [show q - 1 = 1 + (q - 2) by ring, zpow_add₀ (by norm_num)]; norm_num
  have h52 : (2 : ℚ) ^ (q + 52) = 2 ^ 54 * 2 ^ (q - 2) := by
    have := two_zpow_add_eq q 52
    norm_num at this ⊢
    exact this
  have hden : 0 < d * Nat.pow 2 (q - 1).toNat := Nat.mul_pos hd (Nat.pow_pos (by norm_num))
  have hlow := hr.lower_le
  rw [lowerEnd_cast (by rw [hm]; norm_num), if_pos ⟨hm, hq⟩] at hlow
  have hmq : (m : ℚ) = 2 ^ 52 := by exact_mod_cast hm
  rw [hmq] at hlow
  apply roundHalfEven_eq_of_near hden
  · rw [scaled_ratio, lt_div_iff₀ (two_zpow_pos _), eq_div_iff (two_zpow_pos _).ne', hq1]
    rcases lt_or_eq_of_le hlow with h | h
    · left; push_cast; linarith
    · right; exact ⟨by push_cast; linarith, by norm_num⟩
  · left
    rw [scaled_ratio, div_lt_iff₀ (two_zpow_pos _), hq1]
    push_cast
    linarith

end RoundsTo

/-- Every ratio in the rounding interval of `m · 2^q` rounds to its bits. -/
theorem nearestBits_of_roundsTo {n d m : Nat} {q : Int} (hn : 0 < n) (hd : 0 < d)
    (hc : Canonical m q) (hr : RoundsTo m q ((n : ℚ) / d)) :
    nearestBits n d = packBits false m q := by
  unfold nearestBits
  simp only [floorLog2Ratio_eq hn hd]
  rcases hr.exponent hc with he | ⟨hm52, he, hbelow⟩
  · -- the value's own binade: the significand rounds to `m` and nothing carries
    have hq1 := hr.roundHalfEven_significand hc.pos hd
    unfold roundHalfEven at hq1
    simp only [he]
    rw [hq1]
    have hne : m ≠ Nat.pow 2 53 := by have := hc.lt; simp only [Nat.pow_eq]; omega
    simp only [if_neg hne, gt_iff_lt, if_neg (not_lt.mpr hc.le_max)]
  · -- just below a power of two: the significand rounds up to `2^53` and carries into `q`
    have hmin : q > minExponent := by
      have := le_max_right (Int.log 2 ((n : ℚ) / d) - 52) minExponent
      omega
    have hq1 := hr.roundHalfEven_carry hd hm52 hmin hbelow
    unfold roundHalfEven at hq1
    simp only [he]
    rw [hq1]
    simp only [Nat.pow_eq, if_pos, sub_add_cancel, gt_iff_lt, if_neg (not_lt.mpr hc.le_max), hm52]

/-! ## Unsigned decimals -/

/-- The significand a positive ratio is divided down to has at most 53 bits on the grid of
any exponent from its binade's less 52 on. -/
theorem scaled_div_lt {n d : Nat} (hn : 0 < n) (hd : 0 < d) (e : Int)
    (he : floorLog2Ratio n d - 52 ≤ e) :
    n * Nat.pow 2 (-e).toNat / (d * Nat.pow 2 e.toNat) < 2 ^ 53 := by
  have hlog : (n : ℚ) / d < 2 ^ (floorLog2Ratio n d + 1) := by
    rw [floorLog2Ratio_eq hn hd]
    exact_mod_cast Int.lt_zpow_succ_log_self (b := 2) (by norm_num) ((n : ℚ) / d)
  have hq : ((n * Nat.pow 2 (-e).toNat / (d * Nat.pow 2 e.toNat) : Nat) : ℚ) < 2 ^ 53 := by
    calc ((n * Nat.pow 2 (-e).toNat / (d * Nat.pow 2 e.toNat) : Nat) : ℚ)
        ≤ ((n * Nat.pow 2 (-e).toNat : Nat) : ℚ) / ((d * Nat.pow 2 e.toNat : Nat) : ℚ) :=
          Nat.cast_div_le
      _ = n / d / 2 ^ e := scaled_ratio n d e
      _ < 2 ^ (floorLog2Ratio n d + 1) / 2 ^ e := by gcongr
      _ ≤ 2 ^ (53 : Int) := by
        rw [← zpow_sub₀ (by norm_num)]
        exact zpow_le_zpow_right₀ (by norm_num) (by omega)
      _ = 2 ^ 53 := by norm_num
  exact_mod_cast hq

/-- A positive ratio rounds to a pattern with a clear sign bit. -/
theorem nearestBits_lt {n d : Nat} (hn : 0 < n) (hd : 0 < d) : nearestBits n d < 2 ^ 63 := by
  have hq0 := scaled_div_lt hn hd (max (floorLog2Ratio n d - 52) minExponent) (le_max_left _ _)
  unfold nearestBits
  simp only [packBits, infinityBits, maxExponent, Nat.pow_eq, Nat.reducePow, Bool.false_eq_true,
    ↓reduceIte]
  generalize max (floorLog2Ratio n d - 52) minExponent = e0 at hq0 ⊢
  generalize n * 2 ^ (-e0).toNat / (d * 2 ^ e0.toNat) = q0 at hq0 ⊢
  -- the rounded significand is at most `2^53`, and a carry resets it to `2^52`
  split_ifs <;> omega

/-- An unsigned decimal reads as a double with a clear sign bit. -/
theorem toFloat_unsigned_lt (d : Nat) (e : Int) :
    (DecimalText.toFloat ⟨false, d, e⟩).toBits.toNat < 2 ^ 63 := by
  unfold DecimalText.toFloat
  simp only [Bool.false_eq_true, ↓reduceIte]
  split_ifs with hd
  · exact toNat_toBits_ofBitsNat_lt (by norm_num)
  · exact toNat_toBits_ofBitsNat_lt (by simp [infinityBits])
  · exact toNat_toBits_ofBitsNat_lt (by norm_num)
  · rw [Nat.zero_add]
    exact toNat_toBits_ofBitsNat_lt (nearestBits_lt
      (Nat.mul_pos (Nat.pos_of_ne_zero hd) (Nat.pow_pos (by norm_num))) (Nat.pow_pos (by norm_num)))

/-- A text that does not start with a minus sign reads as a double with a clear sign bit: a
decimal, an infinity or a NaN, all positive. -/
theorem readFloat_toBits_lt {s : String} {x : Float} (hs : s.toList.head? ≠ some '-')
    (h : readFloat s = .ok x) : x.toBits.toNat < 2 ^ 63 := by
  unfold readFloat readLiteral at h
  rcases hcs : s.toList with _ | ⟨c, rest⟩
  · simp [hcs, Except.map] at h
  · have hc : c ≠ '-' := by
      rintro rfl
      simp [hcs] at hs
    simp only [hcs, hc, ↓reduceIte] at h
    -- past an optional plus sign, the reader is left with an unsigned body
    obtain ⟨body, hbody⟩ : ∃ body,
        (if c = '+' then (false, rest) else (false, c :: rest)) = (false, body) := by
      split <;> exact ⟨_, rfl⟩
    rw [hbody] at h
    dsimp only at h
    split at h
    · cases h
    · split at h
      · cases h
        exact toFloat_unsigned_lt _ _
      · split at h
        · cases h
          exact toNat_toBits_ofBitsNat_lt (by simp [infinityBits])
        · split at h
          · cases h
            exact toNat_toBits_ofBitsNat_lt (by norm_num)
          · cases h

end Backtest.Decimal
