import Backtest.Config.Ini
import Backtest.Decimal.Text
/-!
# Config.Flags — command-line flags over a configuration

Flags given on the command line take precedence over the configuration file: each flag that is
present is written into the configuration as text, numbers in their shortest decimal form
without exponent, and the settings are then read from the configuration as usual. A flag that
is absent leaves the configured value, or the default, in place.
-/

namespace Backtest
namespace Config

/-- The dataset flags of a command. -/
structure DatasetFlags where
  path : Option String
  cacheDir : Option String
  window : Option Nat
  deriving Repr, DecidableEq

/-- The backtest flags of a command. -/
structure BacktestFlags where
  execution : Option String
  transactionCost : Option Float
  profitTake : Option Float
  stopLoss : Option Float
  timePeriod : Option Nat
  minibatch : Option Nat
  seed : Option Nat
  returnType : Option String

/-- No dataset flag. -/
def DatasetFlags.none : DatasetFlags := ⟨.none, .none, .none⟩

/-- No backtest flag. -/
def BacktestFlags.none : BacktestFlags := ⟨.none, .none, .none, .none, .none, .none, .none, .none⟩

/-- The `[backtest]` keys of the backtest flags, with their texts. -/
def BacktestFlags.entries (f : BacktestFlags) : List (String × Option String) :=
  [("execution", f.execution),
    ("transaction_cost", f.transactionCost.map Decimal.plain.render),
    ("profit_take", f.profitTake.map Decimal.plain.render),
    ("stop_loss", f.stopLoss.map Decimal.plain.render),
    ("time_period", f.timePeriod.map toString),
    ("minibatch_size", f.minibatch.map toString),
    ("seed", f.seed.map toString),
    ("return_type", f.returnType)]

namespace Ini

/-- Sets a key when a value is given. -/
def setSome (ini : Ini) (part key : String) : Option String → Ini
  | some v => ini.set part key v
  | none => ini

/-- The configuration with the dataset flags written over it. -/
def withDatasetFlags (ini : Ini) (f : DatasetFlags) : Ini :=
  ((ini.setSome "dataset" "path" f.path).setSome "dataset" "cache_dir" f.cacheDir).setSome
    "indicators" "window" (f.window.map toString)

/-- The configuration with the backtest flags written over it. -/
def withBacktestFlags (ini : Ini) (f : BacktestFlags) : Ini :=
  (BacktestFlags.entries f).foldl (fun acc (k, v) => acc.setSome "backtest" k v) ini

/-- The configuration with a strategy program written over it, when one is given. -/
def withProgram (ini : Ini) (program : Option String) : Ini :=
  ini.setSome "strategy" "program" program

end Ini

end Config
end Backtest
