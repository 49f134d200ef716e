import Backtest.Data.Keyed
import Backtest.Market.Indicator.Series
import Backtest.Market.Quantile
/-!
# Market.StockData — the aligned indicator table of one instrument

For one instrument the program keeps its dates, every indicator series and, for each kept
percentile, the rolling quantile series of every indicator. Built from candles with a window
`w`, all of them line up on one time axis that starts `2w` candles in:

* dates and instant or lagged series drop their first `2w` values;
* windowed series, one window shorter already, drop `w`;
* quantiles are rolling quantiles with window `w` of each full series, and drop `w` more
  values for instant and lagged kinds.
-/

namespace Backtest

/-- The indicator table of one instrument. -/
structure StockData where
  dates : List String
  indicators : Keyed (List Float)
  quantiles : Keyed (Keyed (List Float))
  deriving Inhabited

namespace StockData

/-- The table with no dates and no series. -/
def empty : StockData := ⟨[], Keyed.empty, Keyed.empty⟩

/-- How many leading quantile values an indicator's quantile series loses. -/
def quantileTrim (k : Indicator) (window : Nat) : Nat :=
  match k.shape with
  | .instant | .lagged => window
  | .windowed => 0

/-- Adds one indicator's series and quantile series to the table. -/
def addIndicator (candles : List Candle) (window : Nat) (d : StockData) (k : Indicator) :
    StockData :=
  let raw := k.series candles window
  let rolled := Quantile.rolling raw Quantile.percentiles window
  let quantiles := (Quantile.labels.zip rolled).foldl (fun (q : Keyed (Keyed (List Float)))
      (lbl, values) =>
    let inner := (q.get? lbl).getD Keyed.empty
    q.insert lbl (inner.insert k.name (values.drop (quantileTrim k window)))) d.quantiles
  { d with
    indicators := d.indicators.insert k.name (raw.drop (k.trim window))
    quantiles := quantiles }

/-- The table computed from candles with a window. -/
def ofCandles (candles : List Candle) (window : Nat) : StockData :=
  let start : StockData :=
    { dates := (candles.map Candle.date).drop (Size.satMul window 2)
      indicators := Keyed.empty
      quantiles := Keyed.ofList (Quantile.labels.map fun l => (l, Keyed.empty)) }
  Indicator.all.foldl (addIndicator candles window) start

/-- The number of time points. -/
def length (d : StockData) : Nat := d.dates.length

/-- The series of an indicator, by name. -/
def series? (d : StockData) (name : String) : Option (List Float) :=
  d.indicators.get? name

/-- A quantile series, by percentile label and indicator name. -/
def quantileSeries? (d : StockData) (pct name : String) : Option (List Float) :=
  (d.quantiles.get? pct).bind (·.get? name)

/-- The closing prices. -/
def closePrices? (d : StockData) : Option (List Float) :=
  d.series? Indicator.closePrice.name

/-- Whether every series has one value per date. -/
def isAligned (d : StockData) : Bool :=
  let n := d.dates.length
  d.indicators.values.all (·.length == n) &&
    d.quantiles.values.all (fun inner => inner.values.all (·.length == n))

end StockData
end Backtest
