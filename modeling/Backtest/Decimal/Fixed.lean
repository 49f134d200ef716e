import Backtest.Decimal.Binary
/-!
# Decimal.Fixed — a double rounded to a fixed number of places

The exact value of the double is rounded to `places` decimals; a value exactly halfway goes to
the even neighbour. The sign is kept even when the rounded value is zero, so `-0.001` gives
`-0.00`.
-/

namespace Backtest
namespace Decimal

/-- `⌊num / den⌉` with halves going to the even neighbour, for `den > 0`. -/
def roundHalfEven (num den : Nat) : Nat :=
  let q := num / den
  let r := num % den
  if 2 * r > den ∨ (2 * r = den ∧ q % 2 = 1) then q + 1 else q

/-- The magnitude `m · 2^q` scaled by `10^places` and rounded half to even. -/
def scaledRound (m : Nat) (q : Int) (places : Nat) : Nat :=
  roundHalfEven (m * Nat.pow 2 q.toNat * Nat.pow 10 places) (Nat.pow 2 (-q).toNat)

/-- Writes `n` with at least `width` digits, padding with zeros on the left. -/
def padDigits (n width : Nat) : String :=
  let s := toString n
  String.ofList (List.replicate (width - s.length) '0') ++ s

/-- Texts of the special values in fixed notation. -/
structure FixedSpecials where
  nan : String
  infinity : String

/-- Fixed notation of a double with `places` decimals. -/
def fixed (specials : FixedSpecials) (places : Nat) (x : Float) : String :=
  match classify x with
  | .nan => specials.nan
  | .infinite neg => (if neg then "-" else "") ++ specials.infinity
  | .finite b =>
    let r := scaledRound b.significand b.exponent places
    let unit := Nat.pow 10 places
    let sign := if b.negative then "-" else ""
    if places = 0 then sign ++ toString r
    else sign ++ toString (r / unit) ++ "." ++ padDigits (r % unit) places

end Decimal
end Backtest
