/-!
# Decimal.Binary — a double as sign, significand and power of two

A finite double is `(-1)^s · m · 2^q` with a natural significand `m < 2^53` and an exponent
`-1074 ≤ q ≤ 971`. Everything in this library that prints or reads decimals works on that
triple in exact natural-number arithmetic; the bit pattern is the only view of a `Float` it
takes, so no step depends on how the machine rounds.
-/

namespace Backtest
namespace Decimal

/-- A finite double: its value is `(-1)^negative · significand · 2^exponent`. -/
structure Binary where
  negative : Bool
  significand : Nat
  exponent : Int
  deriving Repr, DecidableEq

/-- What a 64-bit pattern denotes. -/
inductive Classified where
  | nan
  | infinite (negative : Bool)
  | finite (b : Binary)
  deriving Repr, DecidableEq

/-- The smallest exponent of the significand: subnormals and the least normal binade share it. -/
def minExponent : Int := -1074

/-- The largest exponent of a finite double's significand. -/
def maxExponent : Int := 971

/-- Splits a bit pattern into sign, exponent field and fraction. The exponent field 2047 holds
the infinities (fraction zero) and the NaNs; field 0 holds zero and the subnormals. -/
def classifyBits (bits : Nat) : Classified :=
  let negative : Bool := bits / Nat.pow 2 63 % 2 == 1
  let field : Nat := bits / Nat.pow 2 52 % 2048
  let fraction : Nat := bits % Nat.pow 2 52
  if field == 2047 then
    if fraction == 0 then .infinite negative else .nan
  else if field == 0 then
    .finite ⟨negative, fraction, minExponent⟩
  else
    .finite ⟨negative, fraction + Nat.pow 2 52, (field : Int) - 1075⟩

/-- The kind and exact value of a double. -/
def classify (x : Float) : Classified :=
  classifyBits x.toBits.toNat

/-- The bit pattern of `(-1)^negative · q · 2^e` for a rounded significand `q < 2^53`;
a significand below `2^52` is subnormal and stands at the least exponent. -/
def packBits (negative : Bool) (q : Nat) (e : Int) : Nat :=
  let sign := if negative then Nat.pow 2 63 else 0
  if q < Nat.pow 2 52 then sign + q
  else sign + (e + 1075).toNat * Nat.pow 2 52 + (q - Nat.pow 2 52)

/-- The bit pattern of an infinity of the given sign. -/
def infinityBits (negative : Bool) : Nat :=
  (if negative then Nat.pow 2 63 else 0) + 2047 * Nat.pow 2 52

/-- The double with the given bit pattern. -/
def ofBitsNat (bits : Nat) : Float :=
  Float.ofBits bits.toUInt64

/-- Positive infinity. -/
def infinity : Float := ofBitsNat (infinityBits false)

/-- Negative infinity. -/
def negInfinity : Float := ofBitsNat (infinityBits true)

/-- A quiet NaN. -/
def nan : Float := ofBitsNat (2047 * Nat.pow 2 52 + Nat.pow 2 51)

/-- Whether a double is neither infinite nor NaN. -/
def isFinite (x : Float) : Bool :=
  match classify x with
  | .finite _ => true
  | _ => false

/-- Whether a double is a NaN. -/
def isNaN (x : Float) : Bool :=
  classify x == .nan

end Decimal
end Backtest
