import Backtest.Decimal.Read
/-!
# Market.Candle — one trading period of an instrument

A candle records the date and the opening, highest, lowest and closing prices of a period,
together with the traded volume. It also defines the price averages that the indicators read.
-/

namespace Backtest

/-- One trading period: date, open, high, low and close prices, and volume. -/
structure Candle where
  date : String
  opening : Float
  high : Float
  low : Float
  close : Float
  volume : Float
  deriving Inhabited

namespace Candle

/-- A candle can be used when something traded and the price moved within it. -/
def isValid (c : Candle) : Bool :=
  c.volume != 0.0 && c.high != c.low

/-- The mean of high, low and close. -/
def typicalPrice (c : Candle) : Float :=
  (c.high + c.low + c.close) / 3.0

/-- High, low and twice the close, averaged. -/
def weightedClose (c : Candle) : Float :=
  (2.0 * c.close + c.high + c.low) / 4.0

/-- The midpoint of high and low. -/
def medianPrice (c : Candle) : Float :=
  (c.high + c.low) / 2.0

/-- The close relative to the open, in percent. -/
def percentChange (c : Candle) : Float :=
  100.0 * (c.close / c.opening - 1.0)

/-- Where the close lies between low (0) and high (100). -/
def closingBias (c : Candle) : Float :=
  100.0 * ((c.close - c.low) / (c.high - c.low))

/-- The body of the candle as a percentage of its range. -/
def extensionRatio (c : Candle) : Float :=
  100.0 * ((c.close - c.opening) / (c.high - c.low))

end Candle
end Backtest
