import Backtest.Trading.Timing
import Backtest.Trading.Execution
import Backtest.Random.Range
import Backtest.Market.Dataset
import Backtest.Error
import Backtest.Text.Blank
/-!
# Trading.Backtest — turning signals into orders

A backtest reads an instrument's signals and closing prices and emits orders under one of three
exit policies:

* stop-loss / profit-take: buy at the next signal, sell at the first later close whose return
  after costs reaches the stop-loss or the profit-take (or at the last close), then look for the
  next signal after the sale;
* time stop: buy at a signal and sell `period` indices later, clipped to the range or the last
  index, then continue from that index;
* market timing: buy when the timing state enters and sell when it exits.

A run may be restricted to a random contiguous minibatch of the indices; the minibatch must be
shorter than the series by at least two.
-/

namespace Backtest
namespace Trading

/-- The names of the three exit policies. -/
inductive ExecutionKind where
  | stopLossProfitTake
  | timeStop
  | marketTiming
  deriving Repr, DecidableEq

namespace ExecutionKind

/-- The canonical name. -/
def name : ExecutionKind → String
  | stopLossProfitTake => "StopLossProfitTake"
  | timeStop => "TimestopHit"
  | marketTiming => "MarketTiming"

/-- Reads a policy name or one of its short forms, ignoring blanks around it. -/
def ofName (s : String) : Except Error ExecutionKind :=
  match Text.trimBlanks s with
  | "StopLossProfitTake" | "stop-loss" => .ok stopLossProfitTake
  | "TimestopHit" | "TimeStop" | "time-stop" => .ok timeStop
  | "MarketTiming" | "market-timing" => .ok marketTiming
  | other => .error (.invalidParameter "execution" ("unknown execution type '" ++ other ++ "'"))

end ExecutionKind

/-- When a position is closed. -/
inductive ExitPolicy where
  | stopLossProfitTake (profitTake stopLoss : Float)
  | timeStop (period : Nat)
  | marketTiming

/-- The kind of an exit policy. -/
def ExitPolicy.kind : ExitPolicy → ExecutionKind
  | .stopLossProfitTake _ _ => .stopLossProfitTake
  | .timeStop _ => .timeStop
  | .marketTiming => .marketTiming

/-- A backtest's settings. -/
structure BacktestConfig where
  policy : ExitPolicy
  transactionCost : Float
  minibatch : Option Nat
  seed : Option Nat

/-- A parameter failure. -/
def invalid (name reason : String) : Error := .invalidParameter name reason

/-- Checks the settings: a cost in `[0, 1)`, a positive profit-take, a negative stop-loss, a
period and a minibatch of at least one. -/
def BacktestConfig.validate (cfg : BacktestConfig) : Except Error Unit := do
  let c := cfg.transactionCost
  unless c >= 0.0 && c < 1.0 do
    throw (invalid "transaction_cost" ("must be in [0, 1), got " ++ Decimal.plain.render c))
  match cfg.policy with
  | .stopLossProfitTake pt sl =>
    if Decimal.isNaN pt || pt <= 0.0 then
      throw (invalid "profit_take" ("must be positive, got " ++ Decimal.plain.render pt))
    if Decimal.isNaN sl || sl >= 0.0 then
      throw (invalid "stop_loss" ("must be negative, got " ++ Decimal.plain.render sl))
  | .timeStop p => if p = 0 then throw (invalid "time_period" "must be at least 1")
  | .marketTiming => pure ()
  if cfg.minibatch = some 0 then throw (invalid "minibatch_size" "must be at least 1")

/-- The indices `[start, stop)` a run covers: all of them, or a random run of `size` indices
starting at most `len - size - 1`. -/
def sampleRange (len : Nat) (minibatch : Option Nat) (g : Random.ChaCha) :
    Except Error ((Nat × Nat) × Random.ChaCha) :=
  match minibatch with
  | none => .ok ((0, len), g)
  | some size =>
    if len < 2 ∨ size ≥ len - 1 then .error (.minibatchTooLarge size len)
    else
      let (start, g) := Random.uniformInclusive 0 (len - size - 1) g
      .ok ((start, start + size), g)

/-- The first index in `[i, stop)` whose signal is set. -/
def firstSignal (signals : List Bool) (stop i : Nat) : Option Nat :=
  if i < stop then
    if signals.getD i false then some i else firstSignal signals stop (i + 1)
  else none
termination_by stop - i

/-- The first index in `[j, length)` whose close, sold after costs, returns at most the
stop-loss or at least the profit-take on `paid`. -/
def firstExit (closes : List Float) (paid pt sl cost : Float) (j : Nat) : Option Nat :=
  if j < closes.length then
    let r := costAdjustedSell (closes.getD j 0.0) cost / paid - 1.0
    if r <= sl || r >= pt then some j else firstExit closes paid pt sl cost (j + 1)
  else none
termination_by closes.length - j

/-- Where a position bought at `entry` is sold under stop-loss / profit-take: the first later
index whose return crosses either bound, or the last index. -/
def stopLossExit (closes : List Float) (pt sl cost : Float) (entry : Nat) : Nat :=
  let paid := costAdjustedBuy (closes.getD entry 0.0) cost
  (firstExit closes paid pt sl cost (entry + 1)).getD (closes.length - 1)

/-- Round trips under stop-loss / profit-take from `cursor` on. -/
def stopLossTrips (signals : List Bool) (closes : List Float) (stop : Nat) (pt sl cost : Float)
    (cursor : Nat) : List (Nat × Nat) :=
  if cursor < stop then
    match firstSignal signals stop cursor with
    | none => []
    | some entry =>
      if h : cursor ≤ stopLossExit closes pt sl cost entry then
        (entry, stopLossExit closes pt sl cost entry) ::
          stopLossTrips signals closes stop pt sl cost (stopLossExit closes pt sl cost entry + 1)
      else [(entry, stopLossExit closes pt sl cost entry)]
  else []
termination_by stop - cursor
decreasing_by omega

/-- Where a time-stop position is sold when its period ends at `target`: there, if that is
inside the range; otherwise at the last index if the target lies past it, else at the range
end. -/
def timeStopExit (lastIndex stop target : Nat) : Nat :=
  if target < stop then target else if target > lastIndex then lastIndex else stop

/-- Round trips under the time stop from `cursor` on. -/
def timeStopTrips (signals : List Bool) (lastIndex stop period : Nat) (cursor : Nat) :
    List (Nat × Nat) :=
  if cursor < stop then
    if signals.getD cursor false then
      let target := Size.satAdd cursor period
      let exit := timeStopExit lastIndex stop target
      if _ : cursor < target then
        (cursor, exit) :: timeStopTrips signals lastIndex stop period target
      else [(cursor, exit)]
    else timeStopTrips signals lastIndex stop period (cursor + 1)
  else []
termination_by stop - cursor
decreasing_by all_goals omega

/-- Orders under market timing over `[start, stop)`: a buy where the state enters while flat,
a sale where it exits while holding. -/
def timingOrders (states : List TimingState) (start stop : Nat) : List (Side × Nat) :=
  ((List.range (stop - start)).foldl (fun (acc : Bool × List (Side × Nat)) k =>
    let i := start + k
    match states.getD i .neutralHold, acc.1 with
    | .enter, true => (false, (.buy, i) :: acc.2)
    | .exit, false => (true, (.sell, i) :: acc.2)
    | _, _ => acc) (true, [])).2.reverse

/-- Round trips as alternating orders. -/
def tripOrders (trips : List (Nat × Nat)) : List (Side × Nat) :=
  trips.flatMap fun (b, s) => [(.buy, b), (.sell, s)]

/-- The orders of a policy over the indices `[start, stop)`. -/
def policyOrders (policy : ExitPolicy) (cost : Float) (signals : List Bool) (closes : List Float)
    (start stop : Nat) : List (Side × Nat) :=
  match policy with
  | .stopLossProfitTake pt sl => tripOrders (stopLossTrips signals closes stop pt sl cost start)
  | .timeStop p => tripOrders (timeStopTrips signals (closes.length - 1) stop p start)
  | .marketTiming => timingOrders (timingStates signals) start stop

/-- The execution of an order, at the date and the close of its index. -/
def Execution.ofOrder (dates : List String) (closes : List Float) (o : Side × Nat) : Execution :=
  ⟨o.1, dates.getD o.2 "", o.2, closes.getD o.2 0.0⟩

/-- The name of the closing price series. -/
def closeName : String := Indicator.closePrice.name

/-- The orders of one instrument, and the generator after the run. -/
def runBacktest (signals : List Bool) (instrument : String) (data : StockData)
    (cfg : BacktestConfig) (g : Random.ChaCha) : Except Error (List Execution × Random.ChaCha) := do
  cfg.validate
  if signals.isEmpty then return ([], g)
  if signals.length ≠ data.length then
    throw (.signalLengthMismatch instrument signals.length data.length)
  let closes ← match data.series? closeName with
    | some cs =>
      if cs.length = signals.length then pure cs
      else throw (Error.missingIndicator instrument closeName)
    | none => throw (Error.missingIndicator instrument closeName)
  let ((start, stop), g) ← sampleRange signals.length cfg.minibatch g
  let orders := policyOrders cfg.policy cfg.transactionCost signals closes start stop
  return (orders.map (Execution.ofOrder data.dates closes), g)

/-- The generator of the `k`-th instrument of a batch: the seed plus `k`, wrapping. Without a
seed the draws are not reproducible, and the generator seeded with `k` stands in. -/
def batchGenerator (seed : Option Nat) (k : Nat) : Random.ChaCha :=
  Random.ChaCha.ofSeed ((seed.getD 0 + k) % Nat.pow 2 64)

/-- The orders of every instrument with signals, in name order; an instrument missing from
the dataset fails alone, invalid settings fail the batch. -/
def runBacktestAll (signals : Keyed (List Bool)) (ds : Dataset) (cfg : BacktestConfig) :
    Except Error (Keyed (Except Error (List Execution))) := do
  cfg.validate
  return signals.mapIdx fun k name s =>
    match ds.get? name with
    | none => .error (.lookup (.unknownInstrument name))
    | some d => (runBacktest s name d cfg (batchGenerator cfg.seed k)).map (·.1)

end Trading
end Backtest
