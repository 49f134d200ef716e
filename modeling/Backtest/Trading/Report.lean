import Backtest.Config.Settings
import Backtest.Market.Universe
import Backtest.Market.CandleTable
/-!
# Trading.Report — a strategy backtested over a dataset

A backtest report runs a strategy on every instrument of a dataset, backtests each signal
series under one configuration and measures the returns of the instruments whose backtest
succeeded. Instruments whose backtest fails are kept apart with their failure, so one short
series does not hide the others.

`BacktestReport.ofTables` is the whole run from a configuration and price tables: the dataset
settings, the backtest settings and the strategy are read first, in that order, and the first
of them that fails is the answer; then the tables become a dataset with the configured window
and an optional instrument list picks from it.
-/

namespace Backtest
namespace Trading

/-- The instruments a comma-separated list names, in the list's order, or all of them without
a list. A malformed list is an invalid `instruments` parameter, and an unknown name a
look-up failure. -/
def selectInstruments (ds : Dataset) : Option String → Except Error Dataset
  | none => .ok ds
  | some list => do
    let names ← match parseInstruments list with
      | .ok ns => pure ns
      | .error e => throw (.invalidParameter "instruments" e.message)
    match ds.subset names with
    | .ok d => pure d
    | .error e => throw (.lookup e)

/-- What a backtest of a strategy over a dataset yields, per instrument. -/
structure BacktestReport where
  signals : Keyed (List Bool)
  executions : Keyed (List Execution)
  failures : Keyed Error
  returns : Except Error (Keyed (List Float))

namespace BacktestReport

/-- Backtests a strategy over a dataset. -/
def build (s : StrategyProgram) (ds : Dataset) (settings : Config.BacktestSettings) :
    Except Error BacktestReport := do
  let signals := s.runAll ds
  let results ← runBacktestAll signals ds settings.config
  let executions : Keyed (List Execution) := results.filterMap fun _ r =>
    match r with
    | .ok es => some es
    | .error _ => none
  let failures : Keyed Error := results.filterMap fun _ r =>
    match r with
    | .error e => some e
    | .ok _ => none
  let returns := returnsForAll executions settings.returnKind settings.config.transactionCost
  pure ⟨signals, executions, failures, returns⟩

/-- The failure a report stands for: when no instrument succeeded, the failure of the first
failing one; otherwise the failure of measuring the returns, if any. -/
def failure? (r : BacktestReport) : Option Error :=
  match r.executions.entries, r.failures.entries with
  | [], (_, e) :: _ => some e
  | _, _ => match r.returns with
    | .error e => some e
    | .ok _ => none

/-- The dataset of named price tables, each turned into indicator data with `window`. -/
def datasetOfTables (tables : Keyed String) (window : Nat) : Dataset :=
  tables.map fun text => StockData.ofCandles (Candle.ofText text) window

/-- The whole run from a configuration, named price tables and an optional instrument list:
the dataset it covers and its report. -/
def ofTables (ini : Config.Ini) (tables : Keyed String) (instruments : Option String) :
    Except Error (Dataset × BacktestReport) := do
  let data ← ini.datasetSettings
  let settings ← ini.backtestSettings
  let s ← ini.strategy
  let ds ← selectInstruments (datasetOfTables tables data.window) instruments
  pure (ds, ← build s ds settings)

end BacktestReport

end Trading
end Backtest
