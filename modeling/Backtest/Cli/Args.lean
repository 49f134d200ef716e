import Backtest.Config.Flags
import Backtest.Decimal.Integer
import Backtest.Decimal.Read
/-!
# Cli.Args — the command line's grammar

The program is called as `backtester [-c FILE] COMMAND [OPTIONS]`, with the commands
`validate`, `signals`, `backtest`, `info` and `clear-cache`, and `help`. Options are written
`--name VALUE`, `--name=VALUE`, `-s VALUE`, `-sVALUE` or `-s=VALUE`; the configuration file
option is accepted before and after the command.

Arguments are read from the left, level by level: the program's own options up to the
command, then the command's. A token that starts with `-` is an option, also where a value
is expected (only the stop-loss accepts such a value). A value is checked when the next
option is met or the level ends, so an unknown option met first wins over a bad value
before it. Each failure has a kind:

* `UnknownArgument` for an unknown option or a stray token inside a command;
* `InvalidSubcommand` for a token that is not a command;
* `InvalidValue` for an option without value or an empty path;
* `ValueValidation` for a value that does not read as its type;
* `TooManyValues` for a value given to a switch;
* `ArgumentConflict` for an option given twice;
* `DisplayHelp` for `-h`, `--help` and `help`, and `DisplayHelpOnMissingArgumentOrSubcommand`
  or `MissingSubcommand` when no command is given.
-/

namespace Backtest
namespace Cli

/-- Why a command line is not run. -/
inductive ArgsError where
  | displayHelp
  | displayHelpOnMissing
  | missingSubcommand
  | invalidSubcommand
  | unknownArgument
  | invalidValue
  | valueValidation
  | tooManyValues
  | argumentConflict
  deriving DecidableEq, Repr

/-- The name of the kind of refusal. -/
def ArgsError.kind : ArgsError → String
  | .displayHelp => "DisplayHelp"
  | .displayHelpOnMissing => "DisplayHelpOnMissingArgumentOrSubcommand"
  | .missingSubcommand => "MissingSubcommand"
  | .invalidSubcommand => "InvalidSubcommand"
  | .unknownArgument => "UnknownArgument"
  | .invalidValue => "InvalidValue"
  | .valueValidation => "ValueValidation"
  | .tooManyValues => "TooManyValues"
  | .argumentConflict => "ArgumentConflict"

/-- How an option's value is read. -/
inductive ValueKind where
  | path
  | text
  | count
  | real
  | switch
  | help
  deriving DecidableEq, Repr

/-- An option of the command line. -/
structure OptionSpec where
  long : String
  short : Option Char
  kind : ValueKind
  hyphenValues : Bool
  deriving DecidableEq, Repr

/-- An option's value, read. -/
inductive Value where
  | text (s : String)
  | count (n : Nat)
  | real (x : Float)
  | on

/-- The options of the program and its commands. -/
def configOption : OptionSpec := ⟨"config", some 'c', .path, false⟩
def helpOption : OptionSpec := ⟨"help", some 'h', .help, false⟩
def strategyOption : OptionSpec := ⟨"strategy", some 's', .text, false⟩
def datasetOptions : List OptionSpec :=
  [⟨"path", none, .path, false⟩, ⟨"cache-dir", none, .path, false⟩, ⟨"window", none, .count, false⟩]
def selectionOptions : List OptionSpec :=
  [strategyOption, ⟨"instruments", none, .text, false⟩, ⟨"json", none, .switch, false⟩]
def backtestOptions : List OptionSpec :=
  [⟨"execution", none, .text, false⟩, ⟨"transaction-cost", none, .real, false⟩,
    ⟨"profit-take", none, .real, false⟩, ⟨"stop-loss", none, .real, true⟩,
    ⟨"time-period", none, .count, false⟩, ⟨"minibatch", none, .count, false⟩,
    ⟨"seed", none, .count, false⟩, ⟨"return-type", none, .text, false⟩]

/-- The command names. -/
def commandNames : List String := ["validate", "signals", "backtest", "info", "clear-cache", "help"]

/-- The options a level accepts: the program's own, or a command's. -/
def optionsOf : Option String → List OptionSpec
  | none => [configOption, helpOption]
  | some "validate" => [configOption, strategyOption, helpOption]
  | some "signals" => configOption :: helpOption :: datasetOptions ++ selectionOptions
  | some "backtest" => configOption :: helpOption :: datasetOptions ++ backtestOptions ++ selectionOptions
  | some _ => configOption :: helpOption :: datasetOptions

/-- Reads an option's value. -/
def readValue (o : OptionSpec) (v : String) : Except ArgsError Value :=
  match o.kind with
  | .path => if v.isEmpty then .error .invalidValue else .ok (.text v)
  | .text => .ok (.text v)
  | .count => match Decimal.readSize v with
    | .ok n => .ok (.count n)
    | .error _ => .error .valueValidation
  | .real => match Decimal.readFloat v with
    | .ok x => .ok (.real x)
    | .error _ => .error .valueValidation
  | .switch | .help => .ok .on

/-- The state of reading one level. -/
structure Scan where
  matched : List (String × Value)
  pending : Option (OptionSpec × List String)
  expecting : Option OptionSpec
  trailing : Bool

/-- Nothing read yet. -/
def Scan.start : Scan := ⟨[], none, none, false⟩

/-- Records an option met with its values, after the option still waiting for its value. -/
def Scan.record (s : Scan) (o : OptionSpec) (vals : List String) : Except ArgsError Scan := do
  let s ← match s.pending with
    | none => pure s
    | some (p, pv) => recordNow { s with pending := none } p pv
  recordNow s o vals
where
  /-- Records one option with its values. -/
  recordNow (s : Scan) (o : OptionSpec) (vals : List String) : Except ArgsError Scan := do
    if o.kind = .help then throw .displayHelp
    let v ← match o.kind, vals with
      | .switch, _ => pure Value.on
      | _, [] => throw .invalidValue
      | _, v :: _ => pure (Value.text v)
    if s.matched.any (·.1 == o.long) then throw .argumentConflict
    let v ← match v with
      | .text t => readValue o t
      | other => pure other
    pure { s with matched := s.matched ++ [(o.long, v)] }

/-- Settles the option still waiting for its value. -/
def Scan.settle (s : Scan) : Except ArgsError Scan :=
  match s.pending with
  | none => .ok s
  | some (p, pv) => Scan.record.recordNow { s with pending := none } p pv

/-- Starts an option whose value follows. -/
def Scan.await (s : Scan) (o : OptionSpec) : Except ArgsError Scan := do
  let s ← s.settle
  pure { s with pending := some (o, []), expecting := some o }

/-- Adds a value to the option waiting for one. -/
def Scan.give (s : Scan) (v : String) : Scan :=
  match s.pending with
  | some (p, pv) => { s with pending := some (p, pv ++ [v]), expecting := none }
  | none => { s with expecting := none }

/-- Reads the letters of a cluster of short options. -/
def shortCluster (opts : List OptionSpec) (s : Scan) : List Char → Except ArgsError Scan
  | [] => .ok s
  | c :: rest =>
    match opts.find? (·.short == some c) with
    | none => .error .unknownArgument
    | some o =>
      if o.kind = .help || o.kind = .switch then do
        let s ← s.record o []
        shortCluster opts { s with expecting := none } rest
      else
        match rest with
        | [] => s.await o
        | '=' :: v => do let s ← s.record o [String.ofList v]; pure { s with expecting := none }
        | v => do let s ← s.record o [String.ofList v]; pure { s with expecting := none }

/-- Whether a token is an option rather than a value. -/
def isOptionToken (t : String) : Bool := t.startsWith "-" && t != "-"

/-- The first `=` of a long option splits its name from an attached value. -/
def splitLong (body : String) : String × Option String :=
  match body.splitOn "=" with
  | [name] => (name, none)
  | name :: rest => (name, some ("=".intercalate rest))
  | [] => (body, none)

/-- Reads the tokens of a level with options `opts`; at the program's level (`top`) a command
name ends the level and is returned with the tokens after it. -/
def scanLevel (opts : List OptionSpec) (top : Bool) (s : Scan) :
    List String → Except ArgsError (Scan × Option (String × List String))
  | [] => do pure (← s.settle, none)
  | t :: rest => do
    if !s.trailing && top && commandNames.contains t then
      return (s, some (t, rest))
    let hyphenValue := match s.expecting with
      | some o => o.hyphenValues
      | none => false
    if !s.trailing && t == "--" && !hyphenValue then
      return ← scanLevel opts top { s with trailing := true } rest
    if !s.trailing && isOptionToken t && !hyphenValue then
      if t.startsWith "--" then
        let (name, attached) := splitLong (t.drop 2).toString
        match opts.find? (·.long == name) with
        | none => throw .unknownArgument
        | some o =>
          if o.kind = .switch || o.kind = .help then
            if attached.isSome then throw .tooManyValues
            let s ← s.record o []
            return ← scanLevel opts top { s with expecting := none } rest
          match attached with
          | some v =>
            let s ← s.record o [v]
            return ← scanLevel opts top { s with expecting := none } rest
          | none => return ← scanLevel opts top (← s.await o) rest
      else
        return ← scanLevel opts top (← shortCluster opts s (t.toList.drop 1)) rest
    if !s.trailing && s.expecting.isSome then
      return ← scanLevel opts top (s.give t) rest
    if top then
      throw (if s.trailing && commandNames.contains t then .unknownArgument else .invalidSubcommand)
    throw .unknownArgument

/-- The `help` command: it names at most one command, which must exist. -/
def helpFor : List String → ArgsError
  | [] => .displayHelp
  | [n] => if commandNames.contains n then .displayHelp else .invalidSubcommand
  | _ :: _ :: _ => .invalidSubcommand

/-- A command with its settings. -/
inductive Command where
  | validate (strategy : Option String)
  | signals (data : Config.DatasetFlags) (strategy instruments : Option String) (json : Bool)
  | backtest (data : Config.DatasetFlags) (flags : Config.BacktestFlags)
      (strategy instruments : Option String) (json : Bool)
  | info (data : Config.DatasetFlags)
  | clearCache (data : Config.DatasetFlags)

/-- A call of the program: the configuration file and the command. -/
structure Invocation where
  config : Option String
  command : Command

/-- The text of an option read. -/
def textOf (m : List (String × Value)) (name : String) : Option String :=
  match m.lookup name with
  | some (.text s) => some s
  | _ => none

/-- The count of an option read. -/
def countOf (m : List (String × Value)) (name : String) : Option Nat :=
  match m.lookup name with
  | some (.count n) => some n
  | _ => none

/-- The double of an option read. -/
def realOf (m : List (String × Value)) (name : String) : Option Float :=
  match m.lookup name with
  | some (.real x) => some x
  | _ => none

/-- The dataset flags read. -/
def datasetFlagsOf (m : List (String × Value)) : Config.DatasetFlags :=
  ⟨textOf m "path", textOf m "cache-dir", countOf m "window"⟩

/-- The backtest flags read. -/
def backtestFlagsOf (m : List (String × Value)) : Config.BacktestFlags :=
  ⟨textOf m "execution", realOf m "transaction-cost", realOf m "profit-take",
    realOf m "stop-loss", countOf m "time-period", countOf m "minibatch", countOf m "seed",
    textOf m "return-type"⟩

/-- The command of a command name with its options read. -/
def commandOf (name : String) (m : List (String × Value)) : Command :=
  let json := (m.lookup "json").isSome
  match name with
  | "validate" => .validate (textOf m "strategy")
  | "signals" => .signals (datasetFlagsOf m) (textOf m "strategy") (textOf m "instruments") json
  | "backtest" => .backtest (datasetFlagsOf m) (backtestFlagsOf m) (textOf m "strategy")
      (textOf m "instruments") json
  | "info" => .info (datasetFlagsOf m)
  | _ => .clearCache (datasetFlagsOf m)

/-- Reads the arguments after the program's name. -/
def parseArgs (args : List String) : Except ArgsError Invocation := do
  let (top, next) ← scanLevel (optionsOf none) true Scan.start args
  match next with
  | none =>
    throw (if top.matched.isEmpty && top.pending.isNone then .displayHelpOnMissing
      else .missingSubcommand)
  | some ("help", rest) => throw (helpFor rest)
  | some (name, rest) =>
    let (sub, _) ← scanLevel (optionsOf (some name)) false Scan.start rest
    let top ← top.settle
    let config := (textOf sub.matched "config").orElse fun _ => textOf top.matched "config"
    pure ⟨config, commandOf name sub.matched⟩

end Cli
end Backtest
