import Backtest.Decimal.Binary
/-!
# Decimal.Shortest — the fewest significant digits that read back

Every double owns an interval of reals that round to it (its ends belong to it exactly when the
significand is even). The shortest decimal of a double is the decimal with the fewest
significant digits inside that interval; when two of that length lie inside, the one nearer
the value wins, and an exact tie goes the way a `Tie` says.

The search walks the decimal grids `10^k` from the coarsest that reaches the value downwards.
On each grid it only tests the value's two neighbours: if any point of a grid lies in the
interval, one of those two does, since the interval contains the value.
-/

namespace Backtest
namespace Decimal

/-- Which shortest decimal a value takes when it lies exactly halfway between two. -/
inductive Tie where
  /-- The one of larger magnitude. -/
  | up
  /-- The one whose last digit is even. -/
  | even
  deriving Repr, DecidableEq

/-- A positive decimal `digits · 10^exponent`. -/
structure Scientific where
  digits : Nat
  exponent : Int
  deriving Repr, DecidableEq

/-- Compares `a · 10^k` with `b · 2^s` exactly. -/
def compareScaled (a : Nat) (k : Int) (b : Nat) (s : Int) : Ordering :=
  compare (a * Nat.pow 10 k.toNat * Nat.pow 2 (-s).toNat) (b * Nat.pow 2 s.toNat * Nat.pow 10 (-k).toNat)

/-- `⌊m · 2^q / 10^k⌋`. -/
def floorScaled (m : Nat) (q k : Int) : Nat :=
  (m * Nat.pow 2 q.toNat * Nat.pow 10 (-k).toNat) / (Nat.pow 2 (-q).toNat * Nat.pow 10 k.toNat)

/-- Moves a first guess `e` of `⌊log₁₀ (m · 2^q)⌋` to the right value, a step at a time. -/
def fixLog10 (m : Nat) (q : Int) : Nat → Int → Int
  | 0, e => e
  | fuel + 1, e =>
    if compareScaled 1 (e + 1) m q != .gt then fixLog10 m q fuel (e + 1)
    else if compareScaled 1 e m q == .gt then fixLog10 m q fuel (e - 1)
    else e

/-- `⌊log₁₀ (m · 2^q)⌋` for `m > 0`, from `⌊log₂⌋ · log₁₀ 2`, which is off by at most one. -/
def floorLog10 (m : Nat) (q : Int) : Int :=
  fixLog10 m q 4 (Int.fdiv ((((Nat.log2 m : Nat) : Int) + q) * 78913) 262144)

/-- Removes the trailing zeros of a decimal, raising its exponent to match. -/
def Scientific.normalize (d : Scientific) : Scientific :=
  if h : d.digits ≠ 0 ∧ d.digits % 10 = 0 then
    Scientific.normalize ⟨d.digits / 10, d.exponent + 1⟩
  else d
termination_by d.digits
decreasing_by
  exact Nat.div_lt_self (Nat.pos_of_ne_zero h.1) (by decide)

/-- The rounding interval of `m · 2^q` in units of `2^(q-2)`: the value is `4m`, the lower end
`4m - 2` (or `4m - 1` at the bottom of a binade, where the gap below is half as wide) and the
upper end `4m + 2`. -/
def lowerEnd (m : Nat) (q : Int) : Nat :=
  if m = Nat.pow 2 52 ∧ q > minExponent then 4 * m - 1 else 4 * m - 2

/-- The candidates of one grid `10^k`: `c` and `c + 1` around the value, kept if inside. -/
def pickOnGrid (tie : Tie) (m : Nat) (q k : Int) : Option Nat :=
  let c := floorScaled m q k
  let s := q - 2
  let inclusive := m % 2 == 0
  let aboveLow (x : Nat) : Bool :=
    match compareScaled x k (lowerEnd m q) s with
    | .gt => true
    | .eq => inclusive
    | .lt => false
  let belowHigh (x : Nat) : Bool :=
    match compareScaled x k (4 * m + 2) s with
    | .lt => true
    | .eq => inclusive
    | .gt => false
  let lowIn := c != 0 && aboveLow c
  let highIn := belowHigh (c + 1)
  match lowIn, highIn with
  | true, true =>
    match compareScaled (2 * c + 1) k (8 * m) s with
    | .lt => some (c + 1)
    | .gt => some c
    | .eq =>
      match tie with
      | .up => some (c + 1)
      | .even => some (if c % 2 == 0 then c else c + 1)
  | true, false => some c
  | false, true => some (c + 1)
  | false, false => none

/-- Searches the grids `10^k`, `10^(k-1)`, … for the first one holding a point of the interval. -/
def searchGrids (tie : Tie) (m : Nat) (q : Int) : Nat → Int → Scientific
  | 0, k => ⟨floorScaled m q k, k⟩
  | fuel + 1, k =>
    match pickOnGrid tie m q k with
    | some c => ⟨c, k⟩
    | none => searchGrids tie m q fuel (k - 1)

/-- The shortest decimal of the positive value `m · 2^q` (with `m > 0`), without trailing zeros.
Seventeen significant digits always suffice for a double, so the search stops there. -/
def shortest (tie : Tie) (m : Nat) (q : Int) : Scientific :=
  (searchGrids tie m q 17 (floorLog10 m q)).normalize

end Decimal
end Backtest
