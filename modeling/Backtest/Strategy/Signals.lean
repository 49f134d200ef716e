import Backtest.Strategy.Parser
import Backtest.Strategy.Eval
import Backtest.Error
/-!
# Strategy.Signals — running a compiled strategy over time

A strategy is a compiled program together with its text. Run on an instrument it gives one
signal per time index of the instrument's table; an index where evaluation fails gets `false`.
-/

namespace Backtest

/-- A compiled strategy program. -/
structure StrategyProgram where
  source : String
  expr : Strategy.Expr

namespace StrategyProgram

/-- Compiles a program. -/
def compile (program : String) : Except Strategy.ParseError StrategyProgram :=
  (Strategy.parse program).map fun e => ⟨program, e⟩

/-- The signals over `len` time indices; a failed evaluation counts as `false`. -/
def signals (s : StrategyProgram) (ds : Dataset) (inst : String) (len : Nat) : List Bool :=
  (List.range len).map fun t =>
    match Strategy.evaluate ds inst t s.expr with
    | .ok b => b
    | .error _ => false

/-- The signals of one instrument, one per date. -/
def run (s : StrategyProgram) (ds : Dataset) (inst : String) : Except Error (List Bool) :=
  match ds.get? inst with
  | some d => .ok (s.signals ds inst d.length)
  | none => .error (.lookup (.unknownInstrument inst))

/-- The signals of every instrument. -/
def runAll (s : StrategyProgram) (ds : Dataset) : Keyed (List Bool) :=
  ds.mapWithKey fun inst d => s.signals ds inst d.length

end StrategyProgram

/-- What a check of a program reports. -/
def validationMessage : String := "The strategy program is OK."

/-- Checks a program: whether it compiles, and the message to show. -/
def validateProgram (program : String) : Bool × String :=
  match StrategyProgram.compile program with
  | .ok _ => (true, validationMessage)
  | .error e => (false, e.context program)

end Backtest
