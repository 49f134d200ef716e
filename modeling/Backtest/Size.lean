import Backtest.Decimal.Binary
/-!
# Size — counts and indices of a 64-bit machine

Window lengths, trims and indices are unsigned 64-bit counts. They are kept as `Nat` and the
two places where the bound shows are written out: arithmetic that saturates at the largest
count, and the conversion of a double to a count, which truncates toward zero and clamps.
-/

namespace Backtest
namespace Size

/-- The largest count, `2^64 - 1`. -/
def max : Nat := Nat.pow 2 64 - 1

/-- Addition that stops at `max`. -/
def satAdd (a b : Nat) : Nat := Nat.min (a + b) max

/-- Multiplication that stops at `max`. -/
def satMul (a b : Nat) : Nat := Nat.min (a * b) max

/-- A double as a count: NaN and negatives give 0, the fraction is cut off, and values past
`max` give `max`. -/
def ofFloat (x : Float) : Nat :=
  match Decimal.classify x with
  | .nan => 0
  | .infinite neg => if neg then 0 else max
  | .finite b =>
    if b.negative then 0
    else Nat.min (b.significand * Nat.pow 2 b.exponent.toNat / Nat.pow 2 (-b.exponent).toNat) max

end Size
end Backtest
