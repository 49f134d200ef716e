import Mathlib
import Backtest.Market.Quantile
/-!
# Proofs.Market.Quantile — rolling quantiles, batched and plain

`rolling` runs one loop over the window starts. For each window it clears one buffer, copies the
window into it, sorts it once, and pushes onto every percentile's row the quantile read from that
sorted copy. The plain computation sorts the window afresh for each percentile. The loop keeps
one invariant: after `k` windows, each row holds the plain quantiles of the first `k` windows,
whatever the buffer held before.

* `buffer_step` — after a step the buffer is the window just sorted; nothing of an earlier window
  is left in it;
* `Batch.Holds`, `Batch.holds_step`, `holds_foldl` — the loop invariant, what one window keeps,
  and what the whole loop keeps;
* `rolling_eq_map_windowQuantiles` — the batch is the plain computation, row by row;
* `rolling_eq_quantile` — rows, their lengths, and each value as the quantile of its window.
-/

namespace Backtest
namespace Quantile

/-! ## The plain computation -/

/-- The quantiles at `p` of the windows `series[i, i + w)`, `i < length - w`, each window
sorted afresh. -/
def windowQuantiles (series : List Float) (w : Nat) (p : Float) : List Float :=
  (List.range (series.length - w)).map fun i => quantile (series.extract i (i + w)) p

theorem length_windowQuantiles (series : List Float) (w : Nat) (p : Float) :
    (windowQuantiles series w p).length = series.length - w := by
  simp [windowQuantiles]

/-! ## One window of the loop -/

namespace Batch

variable (series ps : List Float) (w : Nat)

/-- After a step the buffer holds the window sorted, whatever it held before: the clear drops
the earlier window before the copy. -/
theorem buffer_step (b : Batch) (i : Nat) :
    (step series ps w b i).buffer = sortTotal (series.extract i (i + w)) := by
  simp [step, push, sort, extend, clear]

/-- A step pushes onto each row the quantile of the window at its row's percentile. -/
theorem rows_step (b : Batch) (i : Nat) :
    (step series ps w b i).rows =
      List.zipWith (fun row p => row ++ [quantile (series.extract i (i + w)) p]) b.rows ps := by
  simp [step, push, sort, extend, clear, quantile]

/-- The loop invariant after `k` windows: the row of each percentile holds the plain quantiles
of the windows starting below `k`. -/
def Holds (k : Nat) (b : Batch) : Prop :=
  b.rows = ps.map fun p => (List.range k).map fun i => quantile (series.extract i (i + w)) p

theorem holds_start : Holds series ps w 0 (start ps) := by
  simp [Holds, start]

/-- One window keeps the invariant: the row of `p` had the first `k` quantiles, and the step
pushes the `k`-th. -/
theorem holds_step {k : Nat} {b : Batch} (h : Holds series ps w k b) :
    Holds series ps w (k + 1) (step series ps w b k) := by
  unfold Holds at h ⊢
  rw [rows_step, h, List.zipWith_map_left, List.zipWith_self]
  simp only [List.range_succ, List.map_append, List.map_singleton]

end Batch

/-- The loop over the first `k` window starts ends with the invariant at `k`. -/
theorem holds_foldl (series ps : List Float) (w k : Nat) :
    Batch.Holds series ps w k
      ((List.range k).foldl (Batch.step series ps w) (Batch.start ps)) := by
  induction k with
  | zero => exact Batch.holds_start series ps w
  | succ k ih =>
    rw [List.range_succ, List.foldl_append, List.foldl_cons, List.foldl_nil]
    exact Batch.holds_step series ps w ih

/-- Sorting each window once for all percentiles gives, for each percentile, the quantiles of
the windows sorted afresh. -/
theorem rolling_eq_map_windowQuantiles (series ps : List Float) (w : Nat) :
    rolling series ps w = ps.map (windowQuantiles series w) :=
  holds_foldl series ps w (series.length - w)

/-- The batched rolling quantiles agree with the plain ones: one row per percentile, each
holding one value per window start, `length - w` of them (none when the window is longer than
the series), and the value of row `j` at `i` is, bit for bit, the quantile at `ps[j]` of the
window `series[i, i + w)`. -/
theorem rolling_eq_quantile (series ps : List Float) (w : Nat) :
    (rolling series ps w).length = ps.length ∧
      (∀ row ∈ rolling series ps w, row.length = series.length - w) ∧
      ∀ j (hj : j < ps.length) i, i < series.length - w →
        (rolling series ps w)[j]?.bind (·[i]?) =
          some (quantile (series.extract i (i + w)) ps[j]) := by
  rw [rolling_eq_map_windowQuantiles]
  refine ⟨List.length_map _, fun row hrow => ?_, fun j hj i hi => ?_⟩
  · obtain ⟨p, -, rfl⟩ := List.mem_map.mp hrow
    exact length_windowQuantiles series w p
  · simp [windowQuantiles, hj, hi]

end Quantile
end Backtest
