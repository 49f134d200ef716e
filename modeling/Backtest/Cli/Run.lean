import Backtest.Cli.Args
import Backtest.Cache.Load
import Backtest.Trading.Report
import Backtest.Text.Json
/-!
# Cli.Run — what each command does and prints

A run reads the configuration file when one is named (saying so on the error stream), writes
the command's flags over it, and runs the command:

* `validate` prints whether the strategy program compiles, or where it fails;
* `signals` loads the dataset through the cache and prints, per instrument, how many of its
  signals are set, or all of them as JSON;
* `backtest` also backtests each instrument, skips those that fail with a warning, and prints
  their returns, or their executions and returns as JSON;
* `info` prints each instrument's length and first and last date;
* `clear-cache` removes the dataset's cache directory.

A failure stops the run with `error: ` and its message on the error stream, and the exit code
of its kind. Output is collected in a `Transcript`, so the same run can be replayed on the
directory model of `Store.Disk` and on a real disk.
-/

namespace Backtest
namespace Cli

open Store Config Trading

/-- What a run printed. -/
structure Transcript where
  out : String
  err : String
  deriving Inhabited, Repr, DecidableEq

/-- A run in progress: files through `m`, output collected, failures stop it. -/
abbrev Session (m : Type → Type) := ExceptT Error (StateT Transcript m)

/-- What a run ends with. -/
structure Outcome where
  transcript : Transcript
  exitCode : Nat
  deriving Repr, DecidableEq

variable {m : Type → Type} [Monad m] [FileSystem m]

/-- Prints a line on the output stream. -/
def say (line : String) : Session m Unit :=
  modify fun t => { t with out := t.out ++ line ++ "\n" }

/-- Prints a line on the error stream. -/
def warn (line : String) : Session m Unit :=
  modify fun t => { t with err := t.err ++ line ++ "\n" }

/-- Runs a step that may fail. -/
def liftStep {α : Type} (x : ExceptT Error m α) : Session m α :=
  ExceptT.mk (StateT.lift x.run)

/-- Stops with a failure unless the step succeeded. -/
def expect {α : Type} : Except Error α → Session m α
  | .ok v => pure v
  | .error e => throw e

/-- The configuration of the file `path`, or the empty one. -/
def loadConfig : Option String → Session m Ini
  | none => pure Ini.empty
  | some p => do
    warn ("Loading config from " ++ p)
    let unreadable (reason : String) : Error := .configParse p ("couldn't read " ++ p ++ ": " ++ reason)
    let bytes ← match ← (StateT.lift (FileSystem.readBytes p : m _) : StateT Transcript m _) with
      | .ok b => pure b
      | .error e => throw (unreadable e.message)
    let text ← match Text.decodeUtf8 bytes with
      | .ok s => pure s
      | .error _ => throw (unreadable OsError.invalidText.message)
    match Ini.read text with
    | .ok ini => pure ini
    | .error e => throw (unreadable e.message)

/-- The compiled strategy; a program that does not compile is shown with a caret first. -/
def buildStrategy (ini : Ini) : Session m StrategyProgram := do
  let program ← expect ini.program
  match StrategyProgram.compile program with
  | .ok s => pure s
  | .error e =>
    warn (e.context program)
    throw (.compile e)

/-- Loads the configured dataset through its cache. -/
def loadDataset (settings : DatasetSettings) : Session m Dataset := do
  warn ("Loading dataset " ++ settings.path ++ " (window " ++ toString settings.window ++ ")")
  liftStep ((⟨settings.cacheDir⟩ : Cache.DatasetCache).loadDataset settings.path settings.window)

/-- Runs `validate`. -/
def runValidate (ini : Ini) : Session m Nat := do
  ini.validateStrategy |> expect
  let (ok, diagnostic) := validateProgram ((ini.get "strategy" "program").getD "")
  say diagnostic
  pure (if ok then 0 else 4)

/-- The JSON of a list of flags. -/
def boolsJson (bs : List Bool) : Json := .arr (bs.map .bool)

/-- The JSON of an execution. -/
def executionJson (e : Execution) : Json :=
  .obj [("signal", .str e.side.name), ("time", .str e.time), ("time_index", .nat e.timeIndex),
    ("price", Json.float e.price)]

/-- Runs `signals`. -/
def runSignals (ini : Ini) (instruments : Option String) (json : Bool) : Session m Nat := do
  let settings ← expect ini.datasetSettings
  let s ← buildStrategy ini
  let ds ← expect (selectInstruments (← loadDataset settings) instruments)
  let signals := s.runAll ds
  if json then
    say (Json.obj (signals.entries.map fun (n, bs) => (n, boolsJson bs))).pretty
  else
    for (n, bs) in signals.entries do
      say ("Instrument: " ++ n ++ ", Signals: " ++ toString (bs.filter id).length ++ " of " ++
        toString bs.length)
  pure 0

/-- Runs `backtest`. -/
def runBacktest (ini : Ini) (instruments : Option String) (json : Bool) : Session m Nat := do
  let settings ← expect ini.datasetSettings
  let bt ← expect ini.backtestSettings
  let s ← buildStrategy ini
  let ds ← expect (selectInstruments (← loadDataset settings) instruments)
  warn ("Running " ++ bt.config.policy.kind.name ++ " backtest over " ++ toString ds.size ++
    " instruments")
  let report ← expect (BacktestReport.build s ds bt)
  for (n, e) in report.failures.entries do
    warn ("warning: skipping " ++ n ++ " (" ++ e.message ++ ")")
  if let some e := report.failure? then throw e
  let returns ← expect report.returns
  if json then
    let entries := report.executions.entries.filterMap fun (n, es) =>
      (returns.get? n).map fun rs =>
        (n, Json.obj [("executions", .arr (es.map executionJson)),
          ("returns", .arr (rs.map Json.float))])
    say (Json.obj entries).pretty
  else
    for (n, rs) in returns.entries do
      say ("Instrument: " ++ n ++ ", Returns: " ++ ", ".intercalate (rs.map Decimal.plain.render))
  pure 0

/-- Runs `info`. -/
def runInfo (ini : Ini) : Session m Nat := do
  let settings ← expect ini.datasetSettings
  let ds ← loadDataset settings
  for (n, d) in ds.entries do
    match d.dates.head?, d.dates.getLast? with
    | some first, some last =>
      say (n ++ ": " ++ toString d.length ++ " points, " ++ first ++ " to " ++ last)
    | _, _ => say (n ++ ": no data after trimming")
  warn (toString ds.size ++ " instruments")
  pure 0

/-- Runs `clear-cache`. -/
def runClearCache (ini : Ini) : Session m Nat := do
  let settings ← expect ini.datasetSettings
  let cache : Cache.DatasetCache := ⟨settings.cacheDir⟩
  let target ← (StateT.lift (cache.dirFor settings.path : m String) : StateT Transcript m _)
  if ← liftStep (cache.clear settings.path) then say ("Removed " ++ target)
  else say ("No cache at " ++ target)
  pure 0

/-- Runs a command on its configuration. -/
def runCommand (ini : Ini) : Command → Session m Nat
  | .validate strategy => runValidate (ini.withProgram strategy)
  | .signals data strategy instruments json =>
    runSignals ((ini.withDatasetFlags data).withProgram strategy) instruments json
  | .backtest data flags strategy instruments json =>
    runBacktest (((ini.withDatasetFlags data).withBacktestFlags flags).withProgram strategy)
      instruments json
  | .info data => runInfo (ini.withDatasetFlags data)
  | .clearCache data => runClearCache (ini.withDatasetFlags data)

/-- Runs an invocation of the program to its end. -/
def run (inv : Invocation) : m Outcome := do
  let session : Session m Nat := do runCommand (← loadConfig inv.config) inv.command
  let (result, transcript) ← (session.run.run ⟨"", ""⟩ : m _)
  pure (match result with
    | .ok code => ⟨transcript, code⟩
    | .error e => ⟨{ transcript with err := transcript.err ++ "error: " ++ e.message ++ "\n" },
        e.exitCode⟩)

end Cli
end Backtest
