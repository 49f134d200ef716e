import Backtest.Size
/-!
# Market.Indicator — the eighteen indicators and their names

An indicator turns a list of candles into a series of numbers. Instant indicators read one
candle at a time; the exponential average is lagged, carrying its previous value; windowed
indicators read a fixed number of consecutive candles. Each kind has one canonical name, and
the percent change also answers to an older spelling.

The series of an instrument are cut at the front so that they line up: instant and lagged
series lose two windows, windowed series (already one window shorter) lose one.
-/

namespace Backtest

/-- The indicators the strategy language can read. -/
inductive Indicator where
  | openPrice
  | closePrice
  | highPrice
  | lowPrice
  | tradingVolume
  | weightedClose
  | typicalPrice
  | medianPrice
  | percentChange
  | closingBias
  | extensionRatio
  | ema
  | sma
  | rsi
  | vwap
  | obv
  | roc
  | mfi
  deriving Repr, DecidableEq, Inhabited

/-- How an indicator reads its candles. -/
inductive Shape where
  | instant
  | lagged
  | windowed
  deriving Repr, DecidableEq

namespace Indicator

/-- Every indicator, in the order the program lists them. -/
def all : List Indicator :=
  [openPrice, closePrice, highPrice, lowPrice, tradingVolume, weightedClose, typicalPrice,
    medianPrice, percentChange, closingBias, extensionRatio, ema, sma, rsi, vwap, obv, roc, mfi]

/-- The canonical name. -/
def name : Indicator → String
  | openPrice => "OpenPrice"
  | closePrice => "ClosePrice"
  | highPrice => "HighPrice"
  | lowPrice => "LowPrice"
  | tradingVolume => "TradingVolume"
  | weightedClose => "WeightedClose"
  | typicalPrice => "TypicalPrice"
  | medianPrice => "MedianPrice"
  | percentChange => "PricePercentChangeOpenToClose"
  | closingBias => "ClosingBias"
  | extensionRatio => "ExtensionRatio"
  | ema => "EMA"
  | sma => "SMA"
  | rsi => "RSI"
  | vwap => "VWAP"
  | obv => "OBV"
  | roc => "ROC"
  | mfi => "MFI"

/-- How the indicator reads candles. -/
def shape : Indicator → Shape
  | ema => .lagged
  | sma | rsi | vwap | obv | roc | mfi => .windowed
  | _ => .instant

/-- How many leading values the indicator's series loses so that all series line up. -/
def trim (k : Indicator) (window : Nat) : Nat :=
  match k.shape with
  | .instant | .lagged => Size.satMul window 2
  | .windowed => window

/-- The older spelling of the percent change. -/
def legacyPercentName : String := "PricePercentageChangeOpenToClose"

/-- The indicator with this exact name (case matters), if any. -/
def ofName? (s : String) : Option Indicator :=
  if s = legacyPercentName then some percentChange
  else all.find? (fun k => k.name == s)

/-- The text of a name that names no indicator. -/
def unknownMessage (s : String) : String :=
  "unknown indicator '" ++ s ++ "'"

/-- The names of all indicators. -/
def names : List String := all.map name

end Indicator

/-- The text of a shape. -/
def Shape.name : Shape → String
  | .instant => "Instant"
  | .lagged => "Lagged"
  | .windowed => "Windowed"

end Backtest
