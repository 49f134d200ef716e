import Backtest.Strategy.Expr
import Backtest.Market.Dataset
import Backtest.Market.Quantile
import Backtest.Size
/-!
# Strategy.Eval — evaluating a predicate at one time index

The evaluator walks the tree with an instrument and a time index fixed. `&&` and `||` look at
their right side only when the left side does not decide; `==` and `!=` compare values of one
type, numbers exactly (a NaN equals nothing); division by an exact zero fails. Accessor
arguments are evaluated in order (name, percentile, instrument, time); the time is cut toward
zero, and a negative or non-finite time fails. A numeric percentile is looked up by its label.

Type checks happen at run time too, so a tree that skipped the parser reports the first
mismatch it meets.
-/

namespace Backtest
namespace Strategy

/-- A run-time value. -/
inductive Value where
  | number (x : Float)
  | bool (b : Bool)
  | text (s : String)

/-- The type of a value. -/
def Value.type : Value → ValueType
  | .number _ => .number
  | .bool _ => .bool
  | .text _ => .text

/-- Why an evaluation failed. -/
inductive EvalError where
  | lookup (e : LookupError)
  | invalidTime (x : Float)
  | divisionByZero
  | typeMismatch (expected found : ValueType)

namespace EvalError

/-- The text of an evaluation failure. -/
def message : EvalError → String
  | lookup e => e.message
  | invalidTime x => "invalid time index " ++ Decimal.plain.render x
  | divisionByZero => "division by zero"
  | typeMismatch e f => "type mismatch: expected " ++ e.name ++ ", found " ++ f.name

/-- The name of the kind of failure. -/
def kind : EvalError → String
  | lookup e => "Lookup." ++ e.kind
  | invalidTime _ => "InvalidTime"
  | divisionByZero => "DivisionByZero"
  | typeMismatch _ _ => "TypeMismatch"

end EvalError

namespace Value

/-- The number held, or a mismatch. -/
def asNumber : Value → Except EvalError Float
  | number x => .ok x
  | v => .error (.typeMismatch .number v.type)

/-- The boolean held, or a mismatch. -/
def asBool : Value → Except EvalError Bool
  | bool b => .ok b
  | v => .error (.typeMismatch .bool v.type)

/-- The string held, or a mismatch. -/
def asText : Value → Except EvalError String
  | text s => .ok s
  | v => .error (.typeMismatch .text v.type)

/-- Equality of two values of one type; numbers compare as doubles. -/
def same : Value → Value → Bool
  | number x, number y => x == y
  | bool a, bool b => a == b
  | text a, text b => a == b
  | _, _ => false

end Value

/-- A time argument as an index: finite and not negative, cut toward zero. -/
def timeIndex (x : Float) : Except EvalError Nat :=
  if Decimal.isFinite x && x >= 0.0 then .ok (Size.ofFloat x) else .error (.invalidTime x)

/-- Looks up a dataset, turning its failures into evaluation failures. -/
def liftLookup {α : Type} : Except LookupError α → Except EvalError α
  | .ok a => .ok a
  | .error e => .error (.lookup e)

/-- The value of an arithmetic or comparison operator. -/
def arithmetic (op : BinaryOp) (l r : Float) : Except EvalError Value :=
  match op with
  | .lt => .ok (.bool (l < r))
  | .le => .ok (.bool (l <= r))
  | .gt => .ok (.bool (l > r))
  | .ge => .ok (.bool (l >= r))
  | .add => .ok (.number (l + r))
  | .sub => .ok (.number (l - r))
  | .mul => .ok (.number (l * r))
  | .div => if r == 0.0 then .error .divisionByZero else .ok (.number (l / r))
  | _ => .ok (.bool false)

/-- The value of an expression for an instrument at a time index. -/
def eval (ds : Dataset) (inst : String) (t : Nat) : Expr → Except EvalError Value
  | .number x => .ok (.number x)
  | .bool b => .ok (.bool b)
  | .text s => .ok (.text s)
  | .instrument => .ok (.text inst)
  | .time => .ok (.number (Decimal.natToFloat t))
  | .unary .not e => do return .bool (!(← (← eval ds inst t e).asBool))
  | .unary .negate e => do return .number (-(← (← eval ds inst t e).asNumber))
  | .binary .and l r => do
    if !(← (← eval ds inst t l).asBool) then return .bool false
    return .bool (← (← eval ds inst t r).asBool)
  | .binary .or l r => do
    if (← (← eval ds inst t l).asBool) then return .bool true
    return .bool (← (← eval ds inst t r).asBool)
  | .binary .eq l r => do
    let a ← eval ds inst t l
    let b ← eval ds inst t r
    if a.type ≠ b.type then throw (.typeMismatch a.type b.type)
    return .bool (a.same b)
  | .binary .ne l r => do
    let a ← eval ds inst t l
    let b ← eval ds inst t r
    if a.type ≠ b.type then throw (.typeMismatch a.type b.type)
    return .bool (!a.same b)
  | .binary op l r => do
    let a ← (← eval ds inst t l).asNumber
    let b ← (← eval ds inst t r).asNumber
    arithmetic op a b
  | .indicator n i tm => do
    let name ← (← eval ds inst t n).asText
    let instrument ← (← eval ds inst t i).asText
    let index ← timeIndex (← (← eval ds inst t tm).asNumber)
    return .number (← liftLookup (ds.indicator name instrument index))
  | .quantile n p i tm => do
    let name ← (← eval ds inst t n).asText
    let label ← match ← eval ds inst t p with
      | .number x => pure (Quantile.label x)
      | v => v.asText
    let instrument ← (← eval ds inst t i).asText
    let index ← timeIndex (← (← eval ds inst t tm).asNumber)
    return .number (← liftLookup (ds.quantileAt name label instrument index))

/-- The truth of a predicate for an instrument at a time index. -/
def evaluate (ds : Dataset) (inst : String) (t : Nat) (e : Expr) : Except EvalError Bool := do
  (← eval ds inst t e).asBool

end Strategy
end Backtest
