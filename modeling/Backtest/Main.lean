import Backtest.Cli.Run
/-!
# Main — the command-line program

The program reads its arguments, runs the command on the real disk through `FileSystem IO`,
and prints what the run collected: its output on the standard output, its messages on the
standard error, and exits with the run's code. Arguments that do not parse print a short
usage and exit with code 2, or 0 when help was asked for.
-/

namespace Backtest
namespace Cli

open Store

/-- The failure the system reported, by its error number. -/
def osErrorOf (e : IO.Error) : OsError :=
  let byCode (code : UInt32) (details : String) : OsError :=
    match code.toNat with
    | 2 => .notFound
    | 17 => .alreadyExists
    | 20 => .notADirectory
    | 21 => .isADirectory
    | 39 => .directoryNotEmpty
    | c => .other c details
  match e with
  | .alreadyExists _ c d | .otherError c d | .resourceBusy c d | .resourceVanished c d
  | .unsupportedOperation c d | .hardwareFault c d | .unsatisfiedConstraints c d
  | .illegalOperation c d | .protocolError c d | .timeExpired c d | .interrupted _ c d
  | .noFileOrDirectory _ c d | .invalidArgument _ c d | .permissionDenied _ c d
  | .resourceExhausted _ c d | .inappropriateType _ c d | .noSuchThing _ c d => byCode c d
  | other => .other 0 (toString other)

/-- Runs a file operation, keeping the system's failure. -/
def attempt {α : Type} (p : String) (x : IO α) : IO (Except OsError α) :=
  if p.isEmpty then pure (.error .notFound)
  else do
    try pure (.ok (← x)) catch e => pure (.error (osErrorOf e))

instance : FileSystem IO where
  readBytes p := attempt p do return (← IO.FS.readBinFile p).toList
  writeBytes p b := attempt p (IO.FS.writeBinFile p ⟨b.toArray⟩)
  rename a b := if b.isEmpty then pure (.error .notFound) else attempt a (IO.FS.rename a b)
  createDirAll p := attempt p (IO.FS.createDirAll p)
  removeFile p := attempt p (IO.FS.removeFile p)
  removeDirAll p := attempt p (IO.FS.removeDirAll p)
  readDir p := attempt p do
    let here ← IO.currentDir
    return ((← (here / p).readDir).map (·.fileName)).toList
  kind p := do
    if p.isEmpty then return none
    let here ← IO.currentDir
    match ← ((here / p).metadata).toBaseIO with
    | .ok md => return some (match md.type with
      | .dir => .directory
      | .file => .file
      | _ => .other)
    | .error _ => return none
  canonicalize p := attempt p do return (← IO.FS.realPath p).toString

/-- The usage of the program. -/
def usage : String :=
  "Strategy evaluation and backtesting over cached indicator data\n\n" ++
  "Usage: backtester [OPTIONS] <COMMAND>\n\n" ++
  "Commands:\n" ++
  "  validate     Check that a strategy program compiles\n" ++
  "  signals      Evaluate a strategy at every time index\n" ++
  "  backtest     Simulate a strategy and print returns per instrument\n" ++
  "  info         Show instruments of a dataset with their lengths and date ranges\n" ++
  "  clear-cache  Remove the cached indicator data of a dataset\n" ++
  "  help         Print this message or the help of the given subcommand(s)\n\n" ++
  "Options:\n" ++
  "  -c, --config <CONFIG>  INI configuration file; command line flags take precedence\n" ++
  "  -h, --help             Print help\n"

/-- The message of arguments that do not parse. -/
def ArgsError.describe : ArgsError → String
  | .displayHelp | .displayHelpOnMissing => usage
  | .missingSubcommand => "error: a command is required\n"
  | .invalidSubcommand => "error: unrecognized subcommand\n"
  | .unknownArgument => "error: unexpected argument found\n"
  | .invalidValue => "error: a value is required but none was supplied\n"
  | .valueValidation => "error: invalid value\n"
  | .tooManyValues => "error: unexpected value for a switch\n"
  | .argumentConflict => "error: an argument cannot be used multiple times\n"

end Cli
end Backtest

open Backtest Cli in
/-- Runs the program on the real disk. -/
def main (args : List String) : IO UInt32 := do
  match parseArgs args with
  | .error .displayHelp =>
    IO.print usage
    return 0
  | .error e =>
    IO.eprint e.describe
    return 2
  | .ok inv =>
    let o ← run inv
    IO.print o.transcript.out
    IO.eprint o.transcript.err
    return o.exitCode.toUInt32
