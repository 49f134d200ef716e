import Backtest.Random.ChaCha
/-!
# Random.Range — uniform draws from an inclusive range of counts

A draw from `low..=high` multiplies a 64-bit draw by the width `w = high - low + 1` and keeps
the high half of the 128-bit product, rejecting the draw when the low half lies above the zone
`(w << lz(w)) - 1` (with `lz` the leading zero bits of `w`), so that every value is equally
likely. A width of `2^64` takes the draw as it is.
-/

namespace Backtest
namespace Random

/-- The number of leading zero bits of a 64-bit word. -/
def leadingZeros (w : Nat) : Nat := 64 - (if w = 0 then 0 else Nat.log2 w + 1)

/-- Draws are retried at most this often; each is rejected with probability below one half. -/
def maxAttempts : Nat := 256

/-- Draws until one falls in the zone. -/
def drawInZone (width zone : Nat) : Nat → ChaCha → Nat × ChaCha
  | 0, g => (0, g)
  | attempts + 1, g =>
    let (v, g) := g.nextU64
    let product := v * width
    if product % Nat.pow 2 64 ≤ zone then (product / Nat.pow 2 64, g) else drawInZone width zone attempts g

/-- A uniform draw from `low..=high` for 64-bit counts `low ≤ high`. -/
def uniformInclusive (low high : Nat) (g : ChaCha) : Nat × ChaCha :=
  let width := (high - low + 1) % Nat.pow 2 64
  if width = 0 then g.nextU64
  else
    let zone := ((width * Nat.pow 2 (leadingZeros width)) % Nat.pow 2 64 + Nat.pow 2 64 - 1) % Nat.pow 2 64
    let (v, g) := drawInZone width zone maxAttempts g
    ((low + v) % Nat.pow 2 64, g)

end Random
end Backtest
