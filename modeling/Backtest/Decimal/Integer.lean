import Backtest.Size
/-!
# Decimal.Integer — whole numbers read from text

A whole number is an optional sign followed by decimal digits and nothing else. The reader
walks the digits from the left and stops at the first fault: a character that is not a digit,
or a digit that carries the value out of the target range. So `"1x99999999999999999999"` is
refused for its `x`, while `"99999999999999999999x"` is refused as too large, since the range
is left before the `x` is reached. An unsigned target accepts `+` but not `-`.
-/

namespace Backtest.Decimal

/-- Why a text is not a whole number of the target range. -/
inductive IntegerError where
  | empty
  | invalidDigit
  | tooLarge
  | tooSmall
  deriving DecidableEq, Repr

/-- The text of a refusal. -/
def IntegerError.message : IntegerError → String
  | .empty => "cannot parse integer from empty string"
  | .invalidDigit => "invalid digit found in string"
  | .tooLarge => "number too large to fit in target type"
  | .tooSmall => "number too small to fit in target type"

/-- Appends the digits `cs` to the magnitude `acc` while it stays at most `bound`; the first
character that is not a digit, or the first digit that passes `bound`, ends the walk with a
fault (`overflow` for the latter). -/
def accumulateDigits (bound : Nat) (overflow : IntegerError) :
    Nat → List Char → Except IntegerError Nat
  | acc, [] => .ok acc
  | acc, c :: rest =>
    if c.isDigit then
      let next := acc * 10 + (c.toNat - '0'.toNat)
      if next ≤ bound then accumulateDigits bound overflow next rest else .error overflow
    else .error .invalidDigit

/-- Reads an unsigned whole number of at most `bound`: an optional `+`, then digits. -/
def readNat (bound : Nat) (s : String) : Except IntegerError Nat :=
  match s.toList with
  | [] => .error .empty
  | ['+'] | ['-'] => .error .invalidDigit
  | '+' :: rest => accumulateDigits bound .tooLarge 0 rest
  | cs => accumulateDigits bound .tooLarge 0 cs

/-- Reads a signed whole number in `[-(bound + 1), bound]`: an optional sign, then digits. -/
def readInt (bound : Nat) (s : String) : Except IntegerError Int :=
  match s.toList with
  | [] => .error .empty
  | ['+'] | ['-'] => .error .invalidDigit
  | '+' :: rest => Int.ofNat <$> accumulateDigits bound .tooLarge 0 rest
  | '-' :: rest => (fun n => -(n : Int)) <$> accumulateDigits (bound + 1) .tooSmall 0 rest
  | cs => Int.ofNat <$> accumulateDigits bound .tooLarge 0 cs

/-- The largest value of a signed 64-bit word. -/
def int64Max : Nat := Nat.pow 2 63 - 1

/-- Reads a count of the machine's size range. -/
def readSize (s : String) : Except IntegerError Nat := readNat Size.max s

/-- Reads a signed 64-bit whole number. -/
def readInt64 (s : String) : Except IntegerError Int := readInt int64Max s

end Backtest.Decimal
