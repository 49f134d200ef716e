import Backtest.Decimal.Fixed
import Backtest.Decimal.Read
import Backtest.Size
/-!
# Market.Quantile — nearest-rank quantiles of a sample

A quantile never interpolates: for `n ≥ 2` sorted values the `p`-quantile is the element at
rank `⌊lerp(-0.5, n - 0.5, p)⌋`, held between the first and the last rank. Samples are sorted
by the total order of doubles, in which negative zero precedes zero and a NaN with the sign bit
clear comes after every number.

Percentiles are named by their two-decimal label (`0.75`); six of them are kept for every
indicator. Their rolling quantiles come from one loop over the window starts: one buffer is
cleared, refilled with the window and sorted once, and each percentile's row gets the quantile
read from it.
-/

namespace Backtest
namespace Quantile

/-- Linear interpolation `(1 - t) · v₀ + t · v₁`. -/
def lerp (v0 v1 t : Float) : Float :=
  (1.0 - t) * v0 + t * v1

/-- The sort key of the total order of doubles: the sign bit flips the order of the rest. -/
def totalKey (x : Float) : Nat :=
  let b := x.toBits.toNat
  if b ≥ Nat.pow 2 63 then Nat.pow 2 64 - 1 - b else b + Nat.pow 2 63

/-- Sorts doubles by their total order. -/
def sortTotal (xs : List Float) : List Float :=
  xs.mergeSort (fun a b => totalKey a ≤ totalKey b)

/-- The larger of two doubles, ignoring a NaN on either side. -/
def maxIgnoringNaN (a b : Float) : Float :=
  if Decimal.isNaN a then b
  else if Decimal.isNaN b then a
  else if a < b then b else a

/-- The largest whole double not above `x`. NaN, the infinities and every double without a
fraction (`-0.0` too) are their own floor; otherwise the fraction is cut off and a negative
double goes one whole number further down, so `floor 2.5 = 2`, `floor 0.5 = 0` and
`floor (-0.5) = -1`. -/
def floor (x : Float) : Float :=
  match Decimal.classify x with
  | .finite ⟨negative, m, q⟩ =>
    let unit := Nat.pow 2 (-q).toNat
    if m % unit = 0 then x
    else
      let whole := if negative then m / unit + 1 else m / unit
      Decimal.DecimalText.toFloat ⟨negative, whole, 0⟩
  | _ => x

/-- The nearest-rank quantile of an already sorted sample; NaN for an empty one. -/
def ofSorted (sorted : List Float) (p : Float) : Float :=
  match sorted with
  | [] => Decimal.nan
  | [x] => x
  | x :: _ =>
    let n := sorted.length
    let pos := lerp (-0.5) (Decimal.natToFloat n - 0.5) p
    let rank := Size.ofFloat (maxIgnoringNaN (floor pos) 0.0)
    sorted.getD (Nat.min rank (n - 1)) x

/-- The nearest-rank `p`-quantile of a sample. -/
def quantile (sample : List Float) (p : Float) : Float :=
  ofSorted (sortTotal sample) p

/-- The two-decimal label of a percentile, rounded exactly with halves to even. -/
def label (p : Float) : String :=
  Decimal.fixed ⟨"NaN", "inf"⟩ 2 p

/-- The percentiles kept for every indicator. -/
def percentiles : List Float :=
  [5, 15, 25, 75, 85, 95].map fun n => Decimal.DecimalText.toFloat ⟨false, n, -2⟩

/-- The labels of the kept percentiles. -/
def labels : List String := percentiles.map label

/-- The state of the batched rolling loop: the row of quantiles built so far for each
percentile, and the one buffer that every window is copied into and sorted in. -/
structure Batch where
  rows : List (List Float)
  buffer : List Float

namespace Batch

/-- An empty row for each percentile, and an empty buffer. -/
def start (ps : List Float) : Batch := ⟨ps.map fun _ => [], []⟩

/-- Empties the buffer. -/
def clear (b : Batch) : Batch := { b with buffer := [] }

/-- Appends values to the buffer. -/
def extend (b : Batch) (xs : List Float) : Batch := { b with buffer := b.buffer ++ xs }

/-- Sorts the buffer by the total order. -/
def sort (b : Batch) : Batch := { b with buffer := sortTotal b.buffer }

/-- Pushes onto each percentile's row its quantile, read from the buffer as a sorted sample;
rows and percentiles are taken in step. -/
def push (b : Batch) (ps : List Float) : Batch :=
  { b with rows := List.zipWith (fun row p => row ++ [ofSorted b.buffer p]) b.rows ps }

/-- One window of the loop: the buffer is cleared, refilled with `series[i, i + window)` and
sorted once, and then every percentile reads its quantile from it. -/
def step (series ps : List Float) (window : Nat) (b : Batch) (i : Nat) : Batch :=
  ((b.clear.extend (series.extract i (i + window))).sort).push ps

end Batch

/-- For each percentile, its quantile over every run `series[i, i + window)` with
`i < length - window`, the runs taken in order, each sorted once in one reused buffer. -/
def rolling (series : List Float) (ps : List Float) (window : Nat) : List (List Float) :=
  ((List.range (series.length - window)).foldl (Batch.step series ps window)
    (Batch.start ps)).rows

end Quantile
end Backtest
