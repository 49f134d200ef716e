import Backtest.Strategy.Parser
import Backtest.Market.Dataset
/-!
# Error — why a command of the program fails

Every failure the program reports has a cause, a one-line message and an exit code: 1 for
reading sources, 2 for configuration, 3 for the cache, 4 for a strategy that does not compile,
5 for a look-up, and 6 for invalid parameters and inconsistent data.
-/

namespace Backtest

/-- A failure of a program command. -/
inductive Error where
  /-- An operating-system failure, with the system's text. -/
  | io (text : String)
  | sourceRead (path reason : String)
  | cacheIntegrity (path reason : String)
  | cacheWrite (path reason : String)
  | compile (e : Strategy.ParseError)
  | lookup (e : LookupError)
  | minibatchTooLarge (size len : Nat)
  | invalidParameter (name reason : String)
  | executionOrder (index : Nat) (expected found : String)
  | signalLengthMismatch (instrument : String) (signals series : Nat)
  | missingIndicator (instrument name : String)
  | configParse (file reason : String)
  | configMissing (part key : String)
  | configInvalid (part key reason : String)

namespace Error

/-- The one-line text of a failure. -/
def message : Error → String
  | io t => t
  | sourceRead p r => "failed to read " ++ p ++ ": " ++ r
  | cacheIntegrity p r => "cache integrity violation for " ++ p ++ ": " ++ r
  | cacheWrite p r => "failed to write cache entry " ++ p ++ ": " ++ r
  | compile e => e.render
  | lookup e => e.message
  | minibatchTooLarge s n =>
    "minibatch size " ++ toString s ++ " too large for series of length " ++ toString n
  | invalidParameter n r => "invalid parameter " ++ n ++ ": " ++ r
  | executionOrder i e f =>
    "execution " ++ toString i ++ ": found " ++ f ++ " signal while expecting " ++ e ++ " signal"
  | signalLengthMismatch i s n =>
    "signal length " ++ toString s ++ " does not match series length " ++ toString n ++
      " for '" ++ i ++ "'"
  | missingIndicator i n => "indicator '" ++ n ++ "' is missing for '" ++ i ++ "'"
  | configParse f r => "config parse error in " ++ f ++ ": " ++ r
  | configMissing s k => "missing config key [" ++ s ++ "] " ++ k
  | configInvalid s k r => "invalid config value [" ++ s ++ "] " ++ k ++ ": " ++ r

/-- The exit code of the process that stops with this failure. -/
def exitCode : Error → Nat
  | io _ | sourceRead _ _ => 1
  | configParse _ _ | configMissing _ _ | configInvalid _ _ _ => 2
  | cacheIntegrity _ _ | cacheWrite _ _ => 3
  | compile _ => 4
  | lookup _ | missingIndicator _ _ => 5
  | _ => 6

/-- The name of the kind of failure. -/
def kind : Error → String
  | io _ => "Io"
  | sourceRead _ _ => "SourceRead"
  | cacheIntegrity _ _ => "CacheIntegrity"
  | cacheWrite _ _ => "CacheWrite"
  | compile _ => "StrategyCompile"
  | lookup e => "Lookup." ++ e.kind
  | minibatchTooLarge _ _ => "MinibatchTooLarge"
  | invalidParameter _ _ => "InvalidParameter"
  | executionOrder _ _ _ => "ExecutionOrder"
  | signalLengthMismatch _ _ _ => "SignalLengthMismatch"
  | missingIndicator _ _ => "MissingIndicator"
  | configParse _ _ => "ConfigParse"
  | configMissing _ _ => "ConfigMissing"
  | configInvalid _ _ _ => "ConfigInvalid"

end Error
end Backtest
