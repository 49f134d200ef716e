import Backtest.Config.Ini
import Backtest.Decimal.Integer
import Backtest.Decimal.Read
import Backtest.Trading.Backtest
import Backtest.Trading.Returns
import Backtest.Strategy.Signals
/-!
# Config.Settings — what a configuration asks for

A configuration names a dataset (`[dataset] path`, `cache_dir`, `[indicators] window`), a
strategy program (`[strategy] program`) and the settings of a backtest (`[backtest]`). Every
key but the dataset path and the program has a default. A key counts as given when it holds
a value that is not blank; a typed value is read from its trimmed text, and a value that does
not read, or reads outside its range, is a `configInvalid` failure naming the key.

The checks run in a fixed order, so the first faulty key is the one reported:

* dataset: the path, then the window (at least 2);
* backtest: execution, transaction cost in `[0, 1)`, positive profit-take, negative stop-loss,
  time period and minibatch of at least 1 (read as signed 64-bit numbers), seed, return type.

`backtestSettings` only builds settings that pass `BacktestConfig.validate`: the checks above
are at least as strict.
-/

namespace Backtest
namespace Config

open Text Decimal Trading

/-- The cache root used when none is configured. -/
def defaultCacheDir : String := "StockData"

/-- The execution used when none is configured. -/
def defaultExecution : String := "StopLossProfitTake"

/-- The transaction cost used when none is configured, `0.0025`. -/
def defaultTransactionCost : Float := DecimalText.toFloat ⟨false, 25, -4⟩

/-- The profit-take used when none is configured, `0.3`. -/
def defaultProfitTake : Float := DecimalText.toFloat ⟨false, 3, -1⟩

/-- The stop-loss used when none is configured, `-0.3`. -/
def defaultStopLoss : Float := DecimalText.toFloat ⟨true, 3, -1⟩

/-- The time period used when none is configured. -/
def defaultTimePeriod : Nat := 100

/-- The return type used when none is configured. -/
def defaultReturnType : String := "SimpleReturns"

/-- The indicator window used when none is configured. -/
def defaultWindow : Nat := 40

/-- The smallest indicator window. -/
def minWindow : Nat := 2

namespace Ini

/-- The value of a key read with `read`: `none` when the key is not given, and a failure that
quotes the trimmed value when it does not read. -/
def typed {α ε : Type} (read : String → Except ε α) (message : ε → String) (ini : Ini)
    (part key : String) : Except Error (Option α) :=
  if ini.hasValue part key then
    let t := trimBlanks ((ini.get part key).getD "")
    match read t with
    | .ok v => .ok (some v)
    | .error e => .error (.configInvalid part key ("'" ++ t ++ "': " ++ message e))
  else .ok none

/-- A count of the machine's range. -/
def size (ini : Ini) (part key : String) : Except Error (Option Nat) :=
  ini.typed readSize IntegerError.message part key

/-- A signed 64-bit number. -/
def int64 (ini : Ini) (part key : String) : Except Error (Option Int) :=
  ini.typed readInt64 IntegerError.message part key

/-- A double. -/
def real (ini : Ini) (part key : String) : Except Error (Option Float) :=
  ini.typed readFloat ReadError.message part key

/-- Checks the indicator window. -/
def validateWindow (ini : Ini) : Except Error Unit := do
  let w := (← ini.size "indicators" "window").getD defaultWindow
  if w < minWindow then
    throw (.configInvalid "indicators" "window" "window must be at least 2")

/-- Checks the dataset part: a path is given and the window is valid. -/
def validateDataset (ini : Ini) : Except Error Unit := do
  unless ini.hasValue "dataset" "path" do throw (.configMissing "dataset" "path")
  ini.validateWindow

/-- Checks that a strategy program is given. -/
def validateStrategy (ini : Ini) : Except Error Unit :=
  if ini.hasValue "strategy" "program" then .ok () else .error (.configMissing "strategy" "program")

/-- Checks a name-valued key with `ofName`, quoting the value as written when it is unknown. -/
def validateName {α : Type} (ini : Ini) (key what : String) (ofName : String → Except Error α) :
    Except Error Unit :=
  match ini.get "backtest" key with
  | some name =>
    match ofName name with
    | .ok _ => .ok ()
    | .error _ => .error (.configInvalid "backtest" key ("unknown " ++ what ++ " '" ++ name ++ "'"))
  | none => .ok ()

/-- Checks the backtest part, key by key in a fixed order. -/
def validateBacktest (ini : Ini) : Except Error Unit := do
  ini.validateName "execution" "execution type" ExecutionKind.ofName
  let cost := (← ini.real "backtest" "transaction_cost").getD defaultTransactionCost
  unless 0.0 <= cost && cost < 1.0 do
    throw (.configInvalid "backtest" "transaction_cost" "transaction_cost must be in [0, 1)")
  let pt := (← ini.real "backtest" "profit_take").getD defaultProfitTake
  if isNaN pt || pt <= 0.0 then
    throw (.configInvalid "backtest" "profit_take" "profit_take must be positive")
  let sl := (← ini.real "backtest" "stop_loss").getD defaultStopLoss
  if isNaN sl || sl >= 0.0 then
    throw (.configInvalid "backtest" "stop_loss" "stop_loss must be negative")
  let period := (← ini.int64 "backtest" "time_period").getD (defaultTimePeriod : Int)
  if period < 1 then
    throw (.configInvalid "backtest" "time_period" "time_period must be at least 1")
  if let some k := ← ini.int64 "backtest" "minibatch_size" then
    if k < 1 then
      throw (.configInvalid "backtest" "minibatch_size" "minibatch_size must be at least 1")
  let _ ← ini.size "backtest" "seed"
  ini.validateName "return_type" "return type" ReturnKind.ofName

end Ini

/-- Where the price files are, where their indicators are cached, and the window. -/
structure DatasetSettings where
  path : String
  cacheDir : String
  window : Nat
  deriving Repr, DecidableEq

/-- A backtest's settings with the kind of returns to report. -/
structure BacktestSettings where
  config : BacktestConfig
  returnKind : ReturnKind

namespace Ini

/-- The dataset settings, after `validateDataset`; a blank cache directory is the default. -/
def datasetSettings (ini : Ini) : Except Error DatasetSettings := do
  ini.validateDataset
  let path ← match ini.get "dataset" "path" with
    | some p => pure p
    | none => throw (.configMissing "dataset" "path")
  let cacheDir := match ini.get "dataset" "cache_dir" with
    | some d => if (trimBlanks d).isEmpty then defaultCacheDir else d
    | none => defaultCacheDir
  let window := (← ini.size "indicators" "window").getD defaultWindow
  pure ⟨path, cacheDir, window⟩

/-- The exit policy of an execution kind, with its parameters read from the configuration. -/
def policy (ini : Ini) : ExecutionKind → Except Error ExitPolicy
  | .stopLossProfitTake => do
    let pt := (← ini.real "backtest" "profit_take").getD defaultProfitTake
    let sl := (← ini.real "backtest" "stop_loss").getD defaultStopLoss
    pure (.stopLossProfitTake pt sl)
  | .timeStop => do
    pure (.timeStop ((← ini.size "backtest" "time_period").getD defaultTimePeriod))
  | .marketTiming => pure .marketTiming

/-- The backtest settings, after `validateBacktest`. -/
def backtestSettings (ini : Ini) : Except Error BacktestSettings := do
  ini.validateBacktest
  let kind ← ExecutionKind.ofName ((ini.get "backtest" "execution").getD defaultExecution)
  let policy ← ini.policy kind
  let cost := (← ini.real "backtest" "transaction_cost").getD defaultTransactionCost
  let minibatch ← ini.size "backtest" "minibatch_size"
  let seed ← ini.size "backtest" "seed"
  let returns ← ReturnKind.ofName ((ini.get "backtest" "return_type").getD defaultReturnType)
  pure ⟨⟨policy, cost, minibatch, seed⟩, returns⟩

/-- The program text, after `validateStrategy`. -/
def program (ini : Ini) : Except Error String := do
  ini.validateStrategy
  pure ((ini.get "strategy" "program").getD "")

/-- The compiled strategy program. -/
def strategy (ini : Ini) : Except Error StrategyProgram := do
  match StrategyProgram.compile (← ini.program) with
  | .ok s => pure s
  | .error e => throw (.compile e)

/-- The keys each part is read for. -/
def knownKeys : List (String × List String) :=
  [("dataset", ["path", "cache_dir"]), ("indicators", ["window"]), ("strategy", ["program"]),
    ("backtest", ["execution", "transaction_cost", "profit_take", "stop_loss", "time_period",
      "minibatch_size", "seed", "return_type"])]

/-- The keys of the four parts that nothing reads, as `part.key`, in ascending order. -/
def unknownKeys (ini : Ini) : List String :=
  let found := knownKeys.flatMap fun (part, known) =>
    ((ini.keys part).filter (fun k => !known.contains k)).map (part ++ "." ++ ·)
  found.mergeSort (fun a b => decide (a ≤ b))

end Ini

end Config
end Backtest
