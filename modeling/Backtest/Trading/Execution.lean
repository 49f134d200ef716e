/-!
# Trading.Execution — the orders a backtest emits

An execution buys or sells one unit at a date's closing price. Prices paid and received are
adjusted by the proportional transaction cost: a purchase costs `p · (1 + c)`, a sale returns
`p · (1 - c)`.
-/

namespace Backtest
namespace Trading

/-- The side of an order. -/
inductive Side where
  | buy
  | sell
  deriving Repr, DecidableEq

/-- The name of a side. -/
def Side.name : Side → String
  | .buy => "Buy"
  | .sell => "Sell"

/-- An order: side, date, time index and price. -/
structure Execution where
  side : Side
  time : String
  timeIndex : Nat
  price : Float

/-- The price paid for a purchase, cost included. -/
def costAdjustedBuy (price cost : Float) : Float := price * (1.0 + cost)

/-- The price received for a sale, cost deducted. -/
def costAdjustedSell (price cost : Float) : Float := price * (1.0 - cost)

end Trading
end Backtest
