import Backtest.Decimal.Binary
/-!
# Decimal.Read — reading decimal text as the nearest double

Accepted text: an optional sign, then `inf`, `infinity` or `nan` in any case, or digits with at
most one point and at least one digit, followed by an optional exponent `e`/`E`, sign and
digits. Nothing else may stand around it, not even blanks. The value is the double nearest to
the exact decimal, a tie going to the even significand; magnitudes beyond the largest double
become infinite.
-/

namespace Backtest
namespace Decimal

/-- Why a text is not a number. -/
inductive ReadError where
  | empty
  | invalid
  deriving Repr, DecidableEq

/-- The text of a refusal. -/
def ReadError.message : ReadError → String
  | .empty => "cannot parse float from empty string"
  | .invalid => "invalid float literal"

/-- A decimal as read: sign, digits and the power of ten that scales them. -/
structure DecimalText where
  negative : Bool
  digits : Nat
  exponent : Int
  deriving Repr, DecidableEq

/-- What a text denotes. -/
inductive Literal where
  | number (d : DecimalText)
  | infinite (negative : Bool)
  | nan
  deriving Repr, DecidableEq

/-- Splits off the longest prefix of ASCII digits. -/
def spanDigits (cs : List Char) : List Char × List Char :=
  (cs.takeWhile Char.isDigit, cs.dropWhile Char.isDigit)

/-- The value of a list of ASCII digits. -/
def digitsValue (ds : List Char) : Nat :=
  ds.foldl (fun acc c => acc * 10 + (c.toNat - '0'.toNat)) 0

/-- Exponent digits beyond this bound change nothing: the value is then zero or infinite. -/
def exponentCap : Nat := 65536

/-- The value of exponent digits, held at the cap once it is passed. -/
def exponentValue (ds : List Char) : Nat :=
  ds.foldl (fun acc c => if acc < exponentCap then acc * 10 + (c.toNat - '0'.toNat) else acc) 0

/-- Reads the optional exponent part; `none` when an `e` has no digits or text follows. -/
def readExponent : List Char → Option Int
  | [] => some 0
  | c :: rest =>
    if c = 'e' ∨ c = 'E' then
      let (neg, body) := match rest with
        | '-' :: r => (true, r)
        | '+' :: r => (false, r)
        | r => (false, r)
      let (ds, tail) := spanDigits body
      if ds.isEmpty ∨ !tail.isEmpty then none
      else
        let v : Int := exponentValue ds
        some (if neg then -v else v)
    else none

/-- Reads the digits, point and exponent of an unsigned decimal. -/
def readUnsigned (cs : List Char) : Option (Nat × Int) :=
  let (whole, rest) := spanDigits cs
  let (frac, rest) := match rest with
    | '.' :: r => spanDigits r
    | r => ([], r)
  if whole.isEmpty ∧ frac.isEmpty then none
  else
    (readExponent rest).map fun e =>
      (digitsValue (whole ++ frac), e - frac.length)

/-- Whether a text spells a word, ignoring ASCII case. -/
def spells (cs : List Char) (word : String) : Bool :=
  cs.map Char.toLower == word.toList

/-- Reads a number literal. -/
def readLiteral (s : String) : Except ReadError Literal :=
  match s.toList with
  | [] => .error .empty
  | c :: rest =>
    let (neg, body) :=
      if c = '-' then (true, rest) else if c = '+' then (false, rest) else (false, c :: rest)
    if body.isEmpty then .error .invalid
    else match readUnsigned body with
      | some (d, e) => .ok (.number ⟨neg, d, e⟩)
      | none =>
        if spells body "inf" || spells body "infinity" then .ok (.infinite neg)
        else if spells body "nan" then .ok .nan
        else .error .invalid

/-- `⌊log₂ (n / d)⌋` for positive `n` and `d`. -/
def floorLog2Ratio (n d : Nat) : Int :=
  let l : Int := (Nat.log2 n : Int) - (Nat.log2 d : Int)
  let below := if l ≥ 0 then n < d * Nat.pow 2 l.toNat else n * Nat.pow 2 (-l).toNat < d
  if below then l - 1 else l

/-- The double nearest to the positive ratio `n / d`, as a sign-free bit pattern. -/
def nearestBits (n d : Nat) : Nat :=
  let e0 := max (floorLog2Ratio n d - 52) minExponent
  let num := n * Nat.pow 2 (-e0).toNat
  let den := d * Nat.pow 2 e0.toNat
  let q0 := num / den
  let r := num % den
  let q1 := if 2 * r > den ∨ (2 * r = den ∧ q0 % 2 = 1) then q0 + 1 else q0
  let (q, e) := if q1 = Nat.pow 2 53 then (Nat.pow 2 52, e0 + 1) else (q1, e0)
  if e > maxExponent then infinityBits false else packBits false q e

/-- Decimal magnitudes outside this window round to zero or overflow before any arithmetic. -/
def decimalLength (n : Nat) : Nat := (toString n).length

/-- The double nearest to `(-1)^negative · digits · 10^exponent`. -/
def DecimalText.toFloat (d : DecimalText) : Float :=
  let sign : Nat := if d.negative then Nat.pow 2 63 else 0
  if d.digits = 0 then ofBitsNat sign
  else
    let magnitude := (decimalLength d.digits : Int) + d.exponent
    if magnitude > 310 then ofBitsNat (infinityBits d.negative)
    else if magnitude < -330 then ofBitsNat sign
    else
      let n := d.digits * Nat.pow 10 d.exponent.toNat
      let den := Nat.pow 10 (-d.exponent).toNat
      ofBitsNat (sign + nearestBits n den)

/-- The double a literal denotes. -/
def Literal.toFloat : Literal → Float
  | .number d => d.toFloat
  | .infinite neg => if neg then negInfinity else infinity
  | .nan => Decimal.nan

/-- Reads a double from text. -/
def readFloat (s : String) : Except ReadError Float :=
  (readLiteral s).map Literal.toFloat

/-- The double nearest to a natural number. -/
def natToFloat (n : Nat) : Float :=
  DecimalText.toFloat ⟨false, n, 0⟩

end Decimal
end Backtest
