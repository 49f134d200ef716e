import Backtest.Market.Candle
import Backtest.Market.Indicator
/-!
# Market.Indicator.Series — computing indicator series from candles

Instant indicators map each candle to a number. The exponential moving average starts at the
first close and moves a fraction `2 / (window + 1)` of the way to each new close. A windowed
indicator is evaluated on every run of `window` consecutive candles that is followed by at
least one more candle, so its series is `window` values shorter than the candles.
-/

namespace Backtest
namespace Indicator

/-- Consecutive pairs of a list. -/
def pairs {α : Type} (xs : List α) : List (α × α) :=
  xs.zip xs.tail

/-- The runs `xs[i, i + window)` for `i < length - window`. -/
def windows {α : Type} (xs : List α) (window : Nat) : List (List α) :=
  (List.range (xs.length - window)).map fun i => (xs.drop i).take window

/-- Adds doubles left to right, starting from negative zero (so a sum of negative zeros stays
negative zero). -/
def floatSum (xs : List Float) : Float :=
  xs.foldl (· + ·) (-0.0)

/-- Simple moving average of the closes; NaN for no candles. -/
def smaOf (w : List Candle) : Float :=
  floatSum (w.map Candle.close) / Decimal.natToFloat w.length

/-- Relative strength: the share of non-falling steps among all steps, as
`100 - 100 / (1 + ups / downs)`, and 100 when no step falls. -/
def rsiOf (w : List Candle) : Float :=
  let steps := (pairs w).map fun (a, b) => b.close - a.close
  let ups := (steps.filter fun d => d >= 0.0).length
  let downs := steps.length - ups
  if downs = 0 then 100.0
  else 100.0 - 100.0 / (1.0 + Decimal.natToFloat ups / Decimal.natToFloat downs)

/-- Volume-weighted average close; NaN when no volume traded. -/
def vwapOf (w : List Candle) : Float :=
  let (weighted, volume) := w.foldl (fun (acc : Float × Float) c =>
    (acc.1 + c.close * c.volume, acc.2 + c.volume)) (0.0, 0.0)
  weighted / volume

/-- On-balance volume: the volume of each rising step added, of each falling step subtracted. -/
def obvOf (w : List Candle) : Float :=
  (pairs w).foldl (fun acc (a, b) =>
    if b.close > a.close then acc + b.volume
    else if b.close < a.close then acc - b.volume
    else acc) 0.0

/-- Rate of change from the first close to the last, in percent; NaN for no candles. -/
def rocOf (w : List Candle) : Float :=
  match w.head?, w.getLast? with
  | some first, some last => 100.0 * ((last.close - first.close) / first.close)
  | _, _ => Decimal.nan

/-- Money flow: typical price times volume, split by whether the typical price rose, as
`100 - 100 / (1 + positive / negative)`, and 100 when no flow is negative. -/
def mfiOf (w : List Candle) : Float :=
  let (pos, neg) := (pairs w).foldl (fun (acc : Float × Float) (a, b) =>
    let today := b.typicalPrice
    let flow := today * b.volume
    if today > a.typicalPrice then (acc.1 + flow, acc.2) else (acc.1, acc.2 + flow)) (0.0, 0.0)
  if neg == 0.0 then 100.0 else 100.0 - 100.0 / (1.0 + pos / neg)

/-- The exponential moving average of the closes, one value per candle. -/
def emaSeries (candles : List Candle) (window : Nat) : List Float :=
  let alpha := 2.0 / (Decimal.natToFloat window + 1.0)
  let step (acc : Option Float × List Float) (c : Candle) : Option Float × List Float :=
    let v := match acc.1 with
      | none => c.close
      | some p => alpha * (c.close - p) + p
    (some v, v :: acc.2)
  ((candles.foldl step (none, [])).2).reverse

/-- The value of a windowed indicator on one run of candles. -/
def windowValue : Indicator → List Candle → Float
  | rsi => rsiOf
  | vwap => vwapOf
  | obv => obvOf
  | roc => rocOf
  | mfi => mfiOf
  | _ => smaOf

/-- The value of an instant indicator on one candle. -/
def instantValue : Indicator → Candle → Float
  | openPrice => Candle.opening
  | highPrice => Candle.high
  | lowPrice => Candle.low
  | tradingVolume => Candle.volume
  | weightedClose => Candle.weightedClose
  | typicalPrice => Candle.typicalPrice
  | medianPrice => Candle.medianPrice
  | percentChange => Candle.percentChange
  | closingBias => Candle.closingBias
  | extensionRatio => Candle.extensionRatio
  | _ => Candle.close

/-- The full series of an indicator over candles. -/
def series (k : Indicator) (candles : List Candle) (window : Nat) : List Float :=
  match k.shape with
  | .instant => candles.map k.instantValue
  | .lagged => emaSeries candles window
  | .windowed => (windows candles window).map k.windowValue

/-- The series with its leading `trim` values removed, so that all kinds line up. -/
def trimmedSeries (k : Indicator) (candles : List Candle) (window : Nat) : List Float :=
  (k.series candles window).drop (k.trim window)

end Indicator
end Backtest
