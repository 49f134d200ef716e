import Mathlib
import Backtest.Proofs.Market.NearestRank
/-!
# Proofs.Market.QuantileLaw — the nearest-rank law

The quantile of a non-empty sample is, bit for bit, an element of it: the one at the clamped rank
`min (rankAt (lerp(-0.5, n - 0.5, p))) (n - 1)` of the copy sorted by the total order of doubles.
The sorted copy is in that order and the rank is monotone in `p`, so the quantile is monotone in
`p` too. A percentile at most zero picks the least element, and one from one on the greatest.
The last needs the count `n` to be an exact double, `n ≤ 2^53`, since the position is computed
from `n` as a double. That bound is a limit of the machine, not of the rule: `2^53` doubles take
`2^56` bytes, 64 PiB, more memory than any machine a sample is held in.

* `sortTotal_pairwise` — the sorted copy is ordered by `totalKey`;
* `clampedRank` — the rank a quantile reads, with its order facts `clampedRank_mono`,
  `clampedRank_of_nonpos` and `clampedRank_of_one_le`;
* `getElem?_sortTotal_clampedRank` — the quantile is the sorted copy's element at that rank;
* `quantile_nearestRank` — the law, for every non-empty sample and every percentile.
-/

namespace Backtest
namespace Quantile

open Decimal Decimal.Extended

/-! ## The sorted copy -/

theorem sortTotal_pairwise (s : List Float) :
    (sortTotal s).Pairwise (fun a b => totalKey a ≤ totalKey b) := by
  have h : (sortTotal s).Pairwise (fun a b => decide (totalKey a ≤ totalKey b) = true) :=
    List.pairwise_mergeSort (fun a b c hab hbc => by simp only [decide_eq_true_eq] at *; omega)
      (fun a b => by simp only [Bool.or_eq_true, decide_eq_true_eq]; omega) s
  simpa using h

@[simp] theorem length_sortTotal (s : List Float) : (sortTotal s).length = s.length :=
  List.length_mergeSort s

@[simp] theorem mem_sortTotal {s : List Float} {x : Float} : x ∈ sortTotal s ↔ x ∈ s :=
  List.mem_mergeSort

/-- Every element of a sample sits at some position of the sorted copy. -/
theorem exists_getElem?_sortTotal {s : List Float} {x : Float} (hx : x ∈ s) :
    ∃ j, j < s.length ∧ (sortTotal s)[j]? = some x := by
  obtain ⟨j, hj⟩ := List.mem_iff_getElem?.mp (mem_sortTotal.mpr hx)
  exact ⟨j, by simpa using (List.getElem?_eq_some_iff.mp hj).1, hj⟩

/-- In a list ordered by `totalKey`, a later position holds a key at least as large. -/
theorem totalKey_le_of_getElem? {l : List Float}
    (hl : l.Pairwise (fun a b => totalKey a ≤ totalKey b)) {i j : Nat} {a b : Float}
    (hij : i ≤ j) (ha : l[i]? = some a) (hb : l[j]? = some b) : totalKey a ≤ totalKey b := by
  obtain ⟨hi, rfl⟩ := List.getElem?_eq_some_iff.mp ha
  obtain ⟨hj, rfl⟩ := List.getElem?_eq_some_iff.mp hb
  rcases hij.lt_or_eq with hlt | rfl
  · exact List.pairwise_iff_getElem.mp hl i j hi hj hlt
  · exact le_rfl

/-! ## The clamped rank -/

/-- The rank the quantile of `n` sorted elements reads at the percentile `p`: the rank of the
position `lerp(-0.5, n - 0.5, p)`, held below `n`. -/
def clampedRank (n : Nat) (p : Float) : Nat :=
  min (rankAt (lerp (-0.5) (natToFloat n - 0.5) p)) (n - 1)

section ClampedRank

variable {n : Nat} {p p' : Float}

theorem clampedRank_lt (hn : 0 < n) (p : Float) : clampedRank n p < n := by
  have h := min_le_right (rankAt (lerp (-0.5) (natToFloat n - 0.5) p)) (n - 1)
  unfold clampedRank
  omega

theorem clampedRank_mono (hn : 0 < n) (h : p ≤ p') : clampedRank n p ≤ clampedRank n p' := by
  obtain ⟨e, hc, he⟩ := value_count_pos hn
  exact min_le_min_right _ (rankAt_lerp_mono hc he h)

theorem clampedRank_of_nonpos (hn : 0 < n) (h : p ≤ 0.0) : clampedRank n p = 0 := by
  obtain ⟨e, hc, he⟩ := value_count_pos hn
  obtain ⟨u, z, hp, hz, huz⟩ := (le_iff_value p 0.0).mp h
  rw [value_zero, Option.some.injEq] at hz
  subst hz
  rw [clampedRank, rankAt_lerp_of_nonpos hc he hp huz, Nat.zero_min]

theorem clampedRank_of_one_le (hn : 0 < n) (hn' : n ≤ 2 ^ 53) (h : 1.0 ≤ p) :
    clampedRank n p = n - 1 :=
  min_eq_right (le_rankAt_lerp_of_one_le hn hn' h)

end ClampedRank

/-! ## The quantile -/

/-- The quantile of a non-empty sorted list is its element at the clamped rank; a single element
is its own quantile, at rank zero. -/
theorem getElem?_ofSorted {sorted : List Float} (hne : sorted ≠ []) (p : Float) :
    sorted[clampedRank sorted.length p]? = some (ofSorted sorted p) := by
  have hlt := clampedRank_lt (List.length_pos_iff.mpr hne) p
  rcases sorted with _ | ⟨x, _ | ⟨y, rest⟩⟩
  · exact absurd rfl hne
  · simp only [clampedRank, List.length_singleton, Nat.sub_self, Nat.min_zero]
    rfl
  · -- from two elements on, the quantile reads the sorted list at the clamped rank
    change _ = some ((x :: y :: rest).getD (clampedRank (x :: y :: rest).length p) x)
    rw [List.getD_eq_getElem?_getD, List.getElem?_eq_getElem hlt]
    rfl

theorem getElem?_sortTotal_clampedRank {s : List Float} (hne : s ≠ []) (p : Float) :
    (sortTotal s)[clampedRank s.length p]? = some (quantile s p) := by
  have hne' : sortTotal s ≠ [] := by
    rw [← List.length_pos_iff, length_sortTotal]
    exact List.length_pos_iff.mpr hne
  simpa [quantile] using getElem?_ofSorted hne' p

/-- The quantile of a non-empty sample is one of its elements. -/
theorem quantile_mem {s : List Float} (hne : s ≠ []) (p : Float) : quantile s p ∈ s :=
  mem_sortTotal.mp (List.mem_of_getElem? (getElem?_sortTotal_clampedRank hne p))

section Order

variable {s : List Float} {p p' : Float}

/-- Two quantiles compare as their clamped ranks do. -/
theorem totalKey_quantile_le_of_rank (hne : s ≠ [])
    (h : clampedRank s.length p ≤ clampedRank s.length p') :
    totalKey (quantile s p) ≤ totalKey (quantile s p') :=
  totalKey_le_of_getElem? (sortTotal_pairwise s) h (getElem?_sortTotal_clampedRank hne p)
    (getElem?_sortTotal_clampedRank hne p')

theorem totalKey_quantile_mono (hne : s ≠ []) (h : p ≤ p') :
    totalKey (quantile s p) ≤ totalKey (quantile s p') :=
  totalKey_quantile_le_of_rank hne (clampedRank_mono (List.length_pos_iff.mpr hne) h)

/-- A percentile at most zero picks the least element. -/
theorem totalKey_quantile_le_of_nonpos (hne : s ≠ []) (h : p ≤ 0.0) {x : Float} (hx : x ∈ s) :
    totalKey (quantile s p) ≤ totalKey x := by
  obtain ⟨j, -, hj⟩ := exists_getElem?_sortTotal hx
  have hq := getElem?_sortTotal_clampedRank hne p
  rw [clampedRank_of_nonpos (List.length_pos_iff.mpr hne) h] at hq
  exact totalKey_le_of_getElem? (sortTotal_pairwise s) (Nat.zero_le j) hq hj

/-- For at most `2^53` elements, a percentile from one on picks the greatest element. -/
theorem le_totalKey_quantile_of_one_le (hne : s ≠ []) (hn : s.length ≤ 2 ^ 53) (h : 1.0 ≤ p)
    {x : Float} (hx : x ∈ s) : totalKey x ≤ totalKey (quantile s p) := by
  obtain ⟨j, hjlt, hj⟩ := exists_getElem?_sortTotal hx
  have hq := getElem?_sortTotal_clampedRank hne p
  rw [clampedRank_of_one_le (List.length_pos_iff.mpr hne) hn h] at hq
  exact totalKey_le_of_getElem? (sortTotal_pairwise s) (by omega) hj hq

end Order

/-! ## The law -/

/-- The nearest-rank law. For every non-empty sample and every percentile `p` (a NaN, an
infinity or a signed zero included), the quantile is an element of the sample: the element of the
sorted copy at the clamped rank. It is monotone in `p` for the total order of doubles, `p ≤ p'`
ruling out NaNs. Every `p` at most zero gives the least element, and every `p` from one on gives
the greatest for every sample a machine can hold: the count is then an exact double, at most
`2^53` (64 PiB of doubles). -/
theorem quantile_nearestRank (sample : List Float) (hne : sample ≠ []) :
    (∀ p, (sortTotal sample)[clampedRank sample.length p]? = some (quantile sample p) ∧
      quantile sample p ∈ sample) ∧
    (∀ p p', p ≤ p' → totalKey (quantile sample p) ≤ totalKey (quantile sample p')) ∧
    (∀ p, p ≤ 0.0 → ∀ x ∈ sample, totalKey (quantile sample p) ≤ totalKey x) ∧
    (sample.length ≤ 2 ^ 53 → ∀ p, 1.0 ≤ p → ∀ x ∈ sample,
      totalKey x ≤ totalKey (quantile sample p)) :=
  ⟨fun p => ⟨getElem?_sortTotal_clampedRank hne p, quantile_mem hne p⟩,
    fun _ _ h => totalKey_quantile_mono hne h,
    fun _ h _ hx => totalKey_quantile_le_of_nonpos hne h hx,
    fun hn _ h _ hx => le_totalKey_quantile_of_one_le hne hn h hx⟩

/-- A sample of the two zeros: the quantile at one is the greater, the positive zero. -/
theorem quantile_nearestRank_signedZeros :
    [0.0, -0.0] ≠ [] ∧ [0.0, -0.0].length ≤ 2 ^ 53 ∧
      ∀ x ∈ [0.0, -0.0], totalKey x ≤ totalKey (quantile [0.0, -0.0] 1.0) := by
  have hne : [0.0, -0.0] ≠ [] := List.cons_ne_nil _ _
  have hlen : [0.0, -0.0].length ≤ 2 ^ 53 := by simp
  exact ⟨hne, hlen, (quantile_nearestRank _ hne).2.2.2 hlen 1.0 (by decide)⟩

end Quantile
end Backtest
