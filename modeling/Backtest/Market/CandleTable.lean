import Backtest.Text.Csv
import Backtest.Market.Candle
import Backtest.Decimal.Read
/-!
# Market.CandleTable — candles from a comma-separated table

A candle table has a header record and then one record per period: date, open, high, low,
close, volume. A record becomes a candle only when it is UTF-8 text, has exactly six fields,
the five prices and the volume read as numbers, and the candle is valid (some volume, a price
range); every other record is left out. The header is skipped whatever its bytes.
-/

namespace Backtest
namespace Candle

/-- The candle of a record, if it is a well-formed and valid one. -/
def ofRecord (fields : List String) : Option Candle :=
  let num (s : String) : Option Float :=
    match Decimal.readFloat s with
    | .ok x => some x
    | .error _ => none
  match fields with
  | [d, o, h, l, c, v] => do
    let candle : Candle := ⟨d, ← num o, ← num h, ← num l, ← num c, ← num v⟩
    if candle.isValid then some candle else none
  | _ => none

/-- The candles of a table's bytes, its header skipped. -/
def ofTable (bytes : List UInt8) : List Candle :=
  (Csv.records bytes).drop 1 |>.filterMap fun r => Csv.textRecord r >>= ofRecord

/-- The candles of a table written as text. -/
def ofText (text : String) : List Candle :=
  ofTable (Text.encodeUtf8 text)

end Candle
end Backtest
