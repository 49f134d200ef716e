import Backtest.Market.CandleTable
import Backtest.Store.FileSystem
import Backtest.Error
import Backtest.Text.Utf8
/-!
# Market.Source — price tables on disk

A dataset directory holds one price table per instrument: every entry that is a file whose
extension is `csv` in any letter case, listed in ascending path order. An instrument is
named by its file's stem. A table's candles are read from the file's bytes; a file or
directory that cannot be read fails with `sourceRead`, naming the path as the program holds
it and the system's reason.
-/

namespace Backtest
namespace Market

open Store

variable {m : Type → Type} [Monad m] [FileSystem m]

/-- The instrument a price file holds: its file name without extension. -/
def instrumentName (p : String) : String := (Path.fileStem p).getD ""

/-- Whether a path names a price table by its extension. -/
def isTablePath (p : String) : Bool :=
  match Path.extension p with
  | some e => e.map Char.toLower == "csv"
  | none => false

/-- The candles of a price table's bytes. -/
def decodeCandles (bytes : List UInt8) : List Candle :=
  Candle.ofTable bytes

/-- The price files of a dataset directory, in ascending order. -/
def listInstrumentFiles (dir : String) : ExceptT Error m (List String) := do
  let names ← ExceptT.mk ((·.mapError fun e => Error.sourceRead dir e.message) <$>
    FileSystem.readDir dir)
  let files ← (names.map (Path.join dir)).filterM fun p => do
    if isTablePath p then pure ((← (FileSystem.kind p : m _)) == some EntryKind.file) else pure false
  pure (files.mergeSort fun a b => decide (a ≤ b))

/-- The candles of one price file. -/
def loadCandles (p : String) : ExceptT Error m (List Candle) := do
  let bytes ← ExceptT.mk ((·.mapError fun e => Error.sourceRead p e.message) <$>
    FileSystem.readBytes p)
  pure (decodeCandles bytes)

end Market
end Backtest
