import Mathlib
import Backtest.Decimal.Shortest
import Backtest.Proofs.Decimal.Rounding
/-!
# The shortest digits of a double read back as the double

`shortest tie m q` searches the decimal grids `10^k`, from a first guess of `⌊log₁₀ (m · 2^q)⌋`
downwards, for a point of the rounding interval of `m · 2^q`, and falls back to the point just
below the double on the eighteenth grid. The main statement is `shortest_roundsTo`: the
decimal it returns (without its trailing zeros) has nonzero digits and lies in the rounding
interval. Whatever the search finds is in the interval (`pickOnGrid_spec`); the fallback is
too, because the first guess is never more than four above `⌊log₁₀⌋` (`estimate_le`,
checked for every binary exponent a double has) and `fixLog10` brings it down to at most
`⌊log₁₀⌋` (`fixLog10_le`), so seventeen grids further down a step is below a quarter of the
gap to the neighbours (`floorScaled_roundsTo`).

Whether the digits are the fewest possible is not needed for reading back and is not proved.
-/

namespace Backtest.Decimal

/-! ## Exact comparisons -/

/-- Two comparisons agree when their strict orders and their equalities do. -/
theorem compare_congr {α β : Type*} [LinearOrder α] [LinearOrder β] {a b : α} {x y : β}
    (hlt : a < b ↔ x < y) (heq : a = b ↔ x = y) : compare a b = compare x y := by
  rcases lt_trichotomy a b with h | h | h
  · rw [compare_lt_iff_lt.mpr h, compare_lt_iff_lt.mpr (hlt.mp h)]
  · rw [compare_eq_iff_eq.mpr h, compare_eq_iff_eq.mpr (heq.mp h)]
  · have hyx : y < x := by
      rcases lt_trichotomy x y with h' | h' | h'
      · exact absurd (hlt.mpr h') (not_lt.mpr h.le)
      · exact absurd (heq.mpr h') (ne_of_gt h)
      · exact h'
    rw [compare_gt_iff_gt.mpr h, compare_gt_iff_gt.mpr hyx]

/-- A power with an integer exponent times the power that clears its negative part. -/
theorem zpow_mul_pow_toNat_neg {b : ℚ} (hb : b ≠ 0) (k : Int) :
    b ^ k * b ^ (-k).toNat = b ^ k.toNat := by
  rw [← zpow_natCast, ← zpow_natCast (n := k.toNat), ← zpow_add₀ hb]
  congr 1; omega

/-- `compareScaled a k b s` compares `a · 10^k` with `b · 2^s`. -/
theorem compareScaled_eq (a : Nat) (k : Int) (b : Nat) (s : Int) :
    compareScaled a k b s = compare ((a : ℚ) * 10 ^ k) ((b : ℚ) * 2 ^ s) := by
  -- multiplied by `10^(-k)⁺ · 2^(-s)⁺`, both sides are the naturals the definition compares
  set D : ℚ := 10 ^ (-k).toNat * 2 ^ (-s).toNat
  have hD : 0 < D := by positivity
  have h1 : (a : ℚ) * 10 ^ k * D = ((a * Nat.pow 10 k.toNat * Nat.pow 2 (-s).toNat : Nat) : ℚ) := by
    push_cast [Nat.pow_eq]
    rw [← zpow_mul_pow_toNat_neg (by norm_num : (10 : ℚ) ≠ 0) k]
    ring
  have h2 : (b : ℚ) * 2 ^ s * D = ((b * Nat.pow 2 s.toNat * Nat.pow 10 (-k).toNat : Nat) : ℚ) := by
    push_cast [Nat.pow_eq]
    rw [← zpow_mul_pow_toNat_neg (by norm_num : (2 : ℚ) ≠ 0) s]
    ring
  unfold compareScaled
  apply compare_congr
  · rw [← mul_lt_mul_iff_of_pos_right hD, h1, h2]; exact_mod_cast Iff.rfl
  · rw [← mul_left_inj' hD.ne', h1, h2]; exact_mod_cast Iff.rfl

/-- `floorScaled m q k` is `⌊m · 2^q / 10^k⌋`. -/
theorem floorScaled_eq (m : Nat) (q k : Int) :
    floorScaled m q k = ⌊(m : ℚ) * 2 ^ q / 10 ^ k⌋₊ := by
  unfold floorScaled
  rw [← Nat.floor_div_eq_div (K := ℚ)]
  congr 1
  push_cast [Nat.pow_eq]
  have h2 := zpow_mul_pow_toNat_neg (by norm_num : (2 : ℚ) ≠ 0) q
  have h10 := zpow_mul_pow_toNat_neg (by norm_num : (10 : ℚ) ≠ 0) k
  rw [← h2, ← h10]
  field_simp


/-! ## The grid points around a double -/

section Grid
variable {m : Nat} {q k : Int}

/-- The double `m · 2^q` in units of `2^(q-2)`. -/
theorem value_eq (m : Nat) (q : Int) : (m : ℚ) * 2 ^ q = 4 * m * 2 ^ (q - 2) := by
  have := two_zpow_add_eq q 0
  norm_num at this
  rw [this]
  ring

/-- The double lies strictly inside its own rounding interval. -/
theorem lowerEnd_lt_value (hm : 0 < m) :
    (lowerEnd m q : ℚ) * 2 ^ (q - 2) < (m : ℚ) * 2 ^ q := by
  have hu := two_zpow_pos (q - 2)
  rw [value_eq m q, lowerEnd_cast hm]
  split_ifs <;> nlinarith

theorem value_lt_upperEnd : (m : ℚ) * 2 ^ q < (4 * m + 2 : ℚ) * 2 ^ (q - 2) := by
  have hu := two_zpow_pos (q - 2)
  rw [value_eq m q]
  nlinarith

/-- The grid point below the double is at most it, the one above is past it. -/
theorem floorScaled_bounds (k : Int) :
    (floorScaled m q k : ℚ) * 10 ^ k ≤ (m : ℚ) * 2 ^ q ∧
      (m : ℚ) * 2 ^ q < (floorScaled m q k + 1 : ℚ) * 10 ^ k := by
  have hg : (0 : ℚ) < 10 ^ k := zpow_pos (by norm_num) k
  have hv : (0 : ℚ) ≤ m * 2 ^ q := by positivity
  rw [floorScaled_eq, ← le_div_iff₀ hg, ← div_lt_iff₀ hg]
  exact ⟨Nat.floor_le (div_nonneg hv hg.le), Nat.lt_floor_add_one _⟩

end Grid

/-! ## One grid -/

/-- The lower neighbour, when `pickOnGrid` keeps it, is in the interval. -/
theorem lowIn_roundsTo {m : Nat} {q k : Int}
    (hA : (floorScaled m q k != 0 &&
      match compareScaled (floorScaled m q k) k (lowerEnd m q) (q - 2) with
      | .gt => true
      | .eq => m % 2 == 0
      | .lt => false) = true) :
    0 < floorScaled m q k ∧ RoundsTo m q (floorScaled m q k * 10 ^ k) := by
  rw [Bool.and_eq_true, bne_iff_ne, compareScaled_eq] at hA
  obtain ⟨hc0, hcmp⟩ := hA
  refine ⟨Nat.pos_of_ne_zero hc0, ⟨?_, ?_⟩⟩
  · -- the lower end, as the test compared it
    rcases hco : compare ((floorScaled m q k : ℚ) * 10 ^ k) ((lowerEnd m q : ℚ) * 2 ^ (q - 2))
      with _ | _ | _ <;> rw [hco] at hcmp
    · cases hcmp
    · exact Or.inr ⟨(compare_eq_iff_eq.mp hco).symm, by simpa using hcmp⟩
    · exact Or.inl (compare_gt_iff_gt.mp hco)
  · -- the upper end: the point is not above the double, which is inside
    exact Or.inl (lt_of_le_of_lt (floorScaled_bounds k).1 value_lt_upperEnd)

/-- The upper neighbour, when `pickOnGrid` keeps it, is in the interval. -/
theorem highIn_roundsTo {m : Nat} {q k : Int} (hm : 0 < m)
    (hB : (match compareScaled (floorScaled m q k + 1) k (4 * m + 2) (q - 2) with
      | .lt => true
      | .eq => m % 2 == 0
      | .gt => false) = true) :
    0 < floorScaled m q k + 1 ∧ RoundsTo m q ((floorScaled m q k + 1 : Nat) * 10 ^ k) := by
  rw [compareScaled_eq] at hB
  refine ⟨Nat.succ_pos _, ⟨?_, ?_⟩⟩
  · -- the lower end: the point is past the double, which is inside
    push_cast
    exact Or.inl (lt_trans (lowerEnd_lt_value hm) (floorScaled_bounds k).2)
  · rcases hco : compare (((floorScaled m q k + 1 : Nat) : ℚ) * 10 ^ k)
      (((4 * m + 2 : Nat) : ℚ) * 2 ^ (q - 2)) with _ | _ | _ <;> rw [hco] at hB
    · push_cast at hco ⊢
      exact Or.inl (compare_lt_iff_lt.mp hco)
    · push_cast at hco ⊢
      exact Or.inr ⟨compare_eq_iff_eq.mp hco, by simpa using hB⟩
    · cases hB

/-- A point `pickOnGrid` returns is in the interval. -/
theorem pickOnGrid_spec (tie : Tie) {m : Nat} {q k : Int} (hm : 0 < m) {c' : Nat}
    (h : pickOnGrid tie m q k = some c') : 0 < c' ∧ RoundsTo m q (c' * 10 ^ k) := by
  unfold pickOnGrid at h
  simp only at h
  split at h
  · -- both neighbours are inside; the tie-break returns one of them
    rename_i hA hB
    have hc := lowIn_roundsTo hA
    have hc1 := highIn_roundsTo hm hB
    split at h
    · cases h; exact hc1
    · cases h; exact hc
    · split at h
      · cases h; exact hc1
      · cases h
        split
        · exact hc
        · exact hc1
  · rename_i hA _
    cases h
    exact lowIn_roundsTo hA
  · rename_i _ hB
    cases h
    exact highIn_roundsTo hm hB
  · cases h

/-- On a grid no coarser than the double and than a quarter of the gap to its neighbours, the
point just below the double is inside its interval. -/
theorem floorScaled_roundsTo {m : Nat} {q k : Int} (hm : 0 < m)
    (hg : (10 : ℚ) ^ k ≤ 2 ^ (q - 2)) (hv : (10 : ℚ) ^ k ≤ m * 2 ^ q) :
    0 < floorScaled m q k ∧ RoundsTo m q (floorScaled m q k * 10 ^ k) := by
  obtain ⟨hle, hlt⟩ := floorScaled_bounds (m := m) (q := q) k
  have hu := two_zpow_pos (q - 2)
  have hgap : (lowerEnd m q : ℚ) * 2 ^ (q - 2) ≤ m * 2 ^ q - 2 ^ (q - 2) := by
    rw [value_eq m q, lowerEnd_cast hm]
    split_ifs <;> nlinarith
  refine ⟨?_, Or.inl ?_, Or.inl (lt_of_le_of_lt hle value_lt_upperEnd)⟩
  · -- the double is at least one grid step, so the point below it is not zero
    have : (0 : ℚ) < floorScaled m q k := by nlinarith
    exact_mod_cast this
  · linarith

/-- The search ends on a point of the rounding interval when the grid it falls back to is no
coarser than the double and than a quarter of the gap to its neighbours. -/
theorem searchGrids_roundsTo (tie : Tie) {m : Nat} {q : Int} (hm : 0 < m) :
    ∀ (fuel : Nat) (k : Int), (10 : ℚ) ^ (k - fuel) ≤ 2 ^ (q - 2) →
      (10 : ℚ) ^ (k - fuel) ≤ m * 2 ^ q →
      0 < (searchGrids tie m q fuel k).digits ∧
        RoundsTo m q ((searchGrids tie m q fuel k).digits *
          10 ^ (searchGrids tie m q fuel k).exponent)
  | 0, k, hg, hv => by
    simp only [Nat.cast_zero, sub_zero] at hg hv
    exact floorScaled_roundsTo hm hg hv
  | fuel + 1, k, hg, hv => by
    unfold searchGrids
    split
    · rename_i c hpick
      exact pickOnGrid_spec tie hm hpick
    · -- no point on this grid: the next finer one still falls back to the same grid
      have hk : k - 1 - fuel = k - (fuel + 1 : Nat) := by push_cast; ring
      exact searchGrids_roundsTo tie hm fuel (k - 1) (hk ▸ hg) (hk ▸ hv)

/-! ## The first grid -/

/-- `fixLog10` never ends above `⌊log₁₀ (m · 2^q)⌋` when it starts at most `fuel` above it:
each step up is taken only onto a power of ten at most the double, and each step down
only off one above it. -/
theorem fixLog10_le {m : Nat} {q : Int} (hm : 0 < m) :
    ∀ (fuel : Nat) (e : Int), e ≤ Int.log 10 ((m : ℚ) * 2 ^ q) + fuel →
      fixLog10 m q fuel e ≤ Int.log 10 ((m : ℚ) * 2 ^ q)
  | 0, e, h => by simpa [fixLog10] using h
  | fuel + 1, e, h => by
    have hv : (0 : ℚ) < m * 2 ^ q := by have := two_zpow_pos q; positivity
    have hlog : ∀ t : Int, (10 : ℚ) ^ t ≤ m * 2 ^ q ↔ t ≤ Int.log 10 ((m : ℚ) * 2 ^ q) := fun t => by
      have := Int.zpow_le_iff_le_log (b := 10) (by decide) (x := t) hv
      push_cast at this
      exact this
    unfold fixLog10
    split
    · -- a step up, onto a power of ten at most the double
      rename_i hup
      rw [bne_iff_ne, ne_eq, compareScaled_eq, Nat.cast_one, one_mul] at hup
      have := (hlog (e + 1)).mp (compare_le_iff_le.mp hup)
      exact fixLog10_le hm fuel (e + 1) (by omega)
    · split
      · exact fixLog10_le hm fuel (e - 1) (by omega)
      · -- the guess stands: its power of ten is at most the double
        rename_i _ hdown
        rw [beq_iff_eq, compareScaled_eq, Nat.cast_one, one_mul] at hdown
        exact (hlog e).mp (compare_le_iff_le.mp hdown)

/-- For every exponent of a nonnegative binary magnitude `2^L` of a double, the scaled
estimate `⌊L · 78913 / 2^18⌋` of `log₁₀ 2^L` is not above it. -/
theorem ten_pow_estimate_le : ∀ l < 1024, 10 ^ (l * 78913 / 262144) ≤ 2 ^ l := by
  decide +kernel

/-- For every negative binary exponent `-a` of a double, the estimate is at most four above
`log₁₀ 2^(-a)`. -/
theorem two_pow_le_estimate : ∀ a < 1075, 2 ^ a ≤ 10 ^ ((a * 78913 + 262143) / 262144 + 4) := by
  decide +kernel

/-- The first guess of `floorLog10` is at most four above `log₁₀ 2^L` for every binary
exponent `L` of a double. -/
theorem estimate_le (L : Int) (h1 : -1074 ≤ L) (h2 : L ≤ 1023) :
    (10 : ℚ) ^ (Int.fdiv (L * 78913) 262144 - 4) ≤ 2 ^ L := by
  rw [Int.fdiv_eq_ediv_of_nonneg _ (by norm_num)]
  rcases le_or_gt 0 L with hL | hL
  · obtain ⟨l, rfl⟩ := Int.eq_ofNat_of_zero_le hL
    have hest : (l : Int) * 78913 / 262144 - 4 ≤ ((l * 78913 / 262144 : Nat) : Int) := by omega
    calc (10 : ℚ) ^ ((l : Int) * 78913 / 262144 - 4)
        ≤ (10 : ℚ) ^ ((l * 78913 / 262144 : Nat) : Int) := zpow_le_zpow_right₀ (by norm_num) hest
      _ ≤ (2 : ℚ) ^ (l : Int) := by
        rw [zpow_natCast, zpow_natCast]
        exact_mod_cast ten_pow_estimate_le l (by omega)
  · obtain ⟨a, rfl⟩ : ∃ a : Nat, L = -(a : Int) := ⟨(-L).toNat, by omega⟩
    have hest : -(a : Int) * 78913 / 262144 - 4 = -(((a * 78913 + 262143) / 262144 + 4 : Nat) : Int) := by
      omega
    rw [hest, zpow_neg, zpow_neg, zpow_natCast, zpow_natCast,
      inv_le_inv₀ (by positivity) (by positivity)]
    exact_mod_cast two_pow_le_estimate a (by omega)

/-- The first grid of the search is at most the double. -/
theorem ten_zpow_floorLog10_le {m : Nat} {q : Int} (hc : Canonical m q) :
    (10 : ℚ) ^ floorLog10 m q ≤ m * 2 ^ q := by
  have hv : (0 : ℚ) < m * 2 ^ q := by have := two_zpow_pos q; have := hc.pos; positivity
  have hlog2 : (2 : ℚ) ^ ((Nat.log2 m : Int) + q) ≤ m * 2 ^ q := by
    rw [zpow_add₀ (by norm_num), zpow_natCast]
    have : ((2 ^ Nat.log2 m : Nat) : ℚ) ≤ m := by exact_mod_cast Nat.log2_self_le hc.pos.ne'
    push_cast at this
    exact mul_le_mul_of_nonneg_right this (two_zpow_pos q).le
  have hL : Nat.log2 m < 53 := (Nat.log2_lt hc.pos.ne').mpr hc.lt
  have hmin := hc.min_le
  have hmax := hc.le_max
  simp only [minExponent, maxExponent] at hmin hmax
  have hest := estimate_le ((Nat.log2 m : Int) + q) (by omega) (by omega)
  have hT : floorLog10 m q ≤ Int.log 10 ((m : ℚ) * 2 ^ q) := by
    apply fixLog10_le hc.pos 4
    have := (Int.zpow_le_iff_le_log (b := 10) (by decide) hv).mp
      (by exact_mod_cast le_trans hest hlog2)
    push_cast
    omega
  calc (10 : ℚ) ^ floorLog10 m q ≤ 10 ^ Int.log 10 ((m : ℚ) * 2 ^ q) :=
        zpow_le_zpow_right₀ (by norm_num) hT
    _ ≤ m * 2 ^ q := by exact_mod_cast Int.zpow_log_le_self (b := 10) (by decide) hv

/-! ## The shortest decimal -/

/-- Dropping trailing zeros keeps the value and a nonzero digit string. -/
theorem normalize_value (d : Scientific) :
    (d.normalize.digits : ℚ) * 10 ^ d.normalize.exponent = d.digits * 10 ^ d.exponent ∧
      (0 < d.digits → 0 < d.normalize.digits) := by
  induction d using Scientific.normalize.induct with
  | case1 d h ih =>
    -- a trailing zero: `d / 10 · 10^(e+1) = d · 10^e`
    rw [Scientific.normalize, dif_pos h]
    obtain ⟨hval, hpos⟩ := ih
    refine ⟨?_, fun _ => hpos (Nat.div_pos (by omega) (by norm_num))⟩
    rw [hval, zpow_add_one₀ (by norm_num)]
    have hdiv : ((d.digits / 10 : Nat) : ℚ) * 10 = d.digits := by
      exact_mod_cast Nat.div_mul_cancel (Nat.dvd_of_mod_eq_zero h.2)
    rw [← hdiv]
    ring
  | case2 d h =>
    rw [Scientific.normalize, dif_neg h]
    exact ⟨rfl, id⟩

/-- The shortest decimal of a nonzero finite double lies in its rounding interval. -/
theorem shortest_roundsTo (tie : Tie) {m : Nat} {q : Int} (hc : Canonical m q) :
    0 < (shortest tie m q).digits ∧
      RoundsTo m q ((shortest tie m q).digits * 10 ^ (shortest tie m q).exponent) := by
  have hv := ten_zpow_floorLog10_le hc
  have hu := two_zpow_pos (q - 2)
  -- seventeen grids below the first, a step is below a quarter of the gap to the neighbours:
  -- `10^(k-17) ≤ m · 2^q / 10^17 < 2^(q+53) / 10^17 < 2^(q-2)`
  have h17 : (10 : ℚ) ^ (floorLog10 m q - (17 : Nat)) * 10 ^ 17 = 10 ^ floorLog10 m q := by
    rw [← zpow_natCast, ← zpow_add₀ (by norm_num)]
    congr 1
    push_cast
    ring
  have hm53 : (m : ℚ) < 2 ^ 53 := by exact_mod_cast hc.lt
  have hval : (m : ℚ) * 2 ^ q < 2 ^ 55 * 2 ^ (q - 2) := by
    rw [value_eq m q]
    nlinarith
  have hgrid : (10 : ℚ) ^ (floorLog10 m q - (17 : Nat)) ≤ 2 ^ (q - 2) := by
    have h10 : (0 : ℚ) ≤ 10 ^ (floorLog10 m q - (17 : Nat)) := (zpow_pos (by norm_num) _).le
    nlinarith
  have hcoarse : (10 : ℚ) ^ (floorLog10 m q - (17 : Nat)) ≤ m * 2 ^ q := by
    have h10 : (0 : ℚ) ≤ 10 ^ (floorLog10 m q - (17 : Nat)) := (zpow_pos (by norm_num) _).le
    nlinarith
  obtain ⟨hpos, hin⟩ := searchGrids_roundsTo tie hc.pos 17 (floorLog10 m q) hgrid hcoarse
  obtain ⟨hnorm, hnpos⟩ := normalize_value (searchGrids tie m q 17 (floorLog10 m q))
  unfold shortest
  exact ⟨hnpos hpos, hnorm ▸ hin⟩

end Backtest.Decimal
