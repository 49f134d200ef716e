import Backtest.Decimal.Shortest
/-!
# Decimal.Text — laying out the shortest digits of a double

The digits come from `shortest`; a `Layout` decides the rest: which decimal magnitudes are
written positionally, whether a whole number keeps a `.0`, how the exponent is marked, which
way a tie goes and how zero and the special values read. Two layouts are used by the program:
`plain`, which never uses an exponent, and `json`, which switches to an exponent outside
`1e-5 ≤ |x| < 1e16`.
-/

namespace Backtest
namespace Decimal

/-- The choices a printer of shortest digits makes. -/
structure Layout where
  /-- Which way an exact tie between two shortest decimals goes. -/
  tie : Tie
  /-- With `some (lo, hi)`, a value `0.d₁d₂… × 10^p` is positional when `lo < p ≤ hi`
  and written with an exponent otherwise; with `none` it is always positional. -/
  positional : Option (Int × Int)
  /-- Whether a whole number is written with a trailing `.0`. -/
  pointZero : Bool
  /-- The text of zero, without sign. -/
  zero : String
  nan : String
  infinity : String
  negInfinity : String

/-- The digits of a natural number. -/
def digitText (n : Nat) : String := toString n

/-- Positional text of the digits `ds` with `p` of them before the point. -/
def positionalText (pointZero : Bool) (ds : String) (p : Int) : String :=
  let n : Int := ds.length
  if p ≤ 0 then
    "0." ++ String.ofList (List.replicate (-p).toNat '0') ++ ds
  else if p < n then
    String.ofList (ds.toList.take p.toNat) ++ "." ++ String.ofList (ds.toList.drop p.toNat)
  else
    ds ++ String.ofList (List.replicate (p - n).toNat '0') ++ (if pointZero then ".0" else "")

/-- Exponent text `d.ddde<p-1>` of the digits `ds` with `p` of them before the point. -/
def exponentText (ds : String) (p : Int) : String :=
  let body := match ds.toList with
    | [] => ""
    | [d] => String.singleton d
    | d :: rest => String.singleton d ++ "." ++ String.ofList rest
  body ++ "e" ++ toString (p - 1)

/-- The text of a double under a layout. -/
def Layout.render (l : Layout) (x : Float) : String :=
  match classify x with
  | .nan => l.nan
  | .infinite neg => if neg then l.negInfinity else l.infinity
  | .finite b =>
    let sign := if b.negative then "-" else ""
    if b.significand = 0 then sign ++ l.zero
    else
      let d := shortest l.tie b.significand b.exponent
      let ds := digitText d.digits
      let p := (ds.length : Int) + d.exponent
      let usePositional := match l.positional with
        | none => true
        | some (lo, hi) => lo < p ∧ p ≤ hi
      sign ++ (if usePositional then positionalText l.pointZero ds p else exponentText ds p)

/-- Plain text: the fewest digits, never an exponent, no `.0`; ties go up. -/
def plain : Layout where
  tie := .up
  positional := none
  pointZero := false
  zero := "0"
  nan := "NaN"
  infinity := "inf"
  negInfinity := "-inf"

/-- JSON number text: the fewest digits, positional for `1e-5 ≤ |x| < 1e16`, whole numbers
keep `.0`, ties go to even; values without a JSON number are written `null`. -/
def json : Layout where
  tie := .even
  positional := some (-5, 16)
  pointZero := true
  zero := "0.0"
  nan := "null"
  infinity := "null"
  negInfinity := "null"

end Decimal
end Backtest
