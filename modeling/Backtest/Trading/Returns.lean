import Backtest.Trading.Execution
import Backtest.Error
import Backtest.Text.Blank
/-!
# Trading.Returns — the return of each round trip

Executions must alternate buy, sell, buy, sell, …; each sale closes the purchase before it and
yields one return, measured after costs as a difference, a difference of logarithms or a ratio.
A purchase left open at the end yields nothing. The first execution out of turn is an error
naming its index.
-/

namespace Backtest
namespace Trading

/-- How a round trip's return is measured. -/
inductive ReturnKind where
  | simple
  | log
  | ratio
  deriving Repr, DecidableEq

namespace ReturnKind

/-- The return of selling at `sell` what was bought at `buy`, after costs. -/
def apply (k : ReturnKind) (sell buy cost : Float) : Float :=
  let proceeds := costAdjustedSell sell cost
  let paid := costAdjustedBuy buy cost
  match k with
  | simple => proceeds - paid
  | log => proceeds.log - paid.log
  | ratio => proceeds / paid

/-- The canonical name. -/
def name : ReturnKind → String
  | simple => "SimpleReturns"
  | log => "LogReturns"
  | ratio => "DivReturns"

/-- Reads a return kind by name, ignoring blanks around it. -/
def ofName (s : String) : Except Error ReturnKind :=
  match Text.trimBlanks s with
  | "SimpleReturns" | "simple" => .ok simple
  | "LogReturns" | "log" => .ok log
  | "DivReturns" | "RatioReturns" | "ratio" => .ok ratio
  | other => .error (.invalidParameter "return_type" ("unknown return type '" ++ other ++ "'"))

end ReturnKind

/-- The returns of alternating executions, from the index `index` on, with a purchase at
`open` still to close. -/
def returnsFrom (k : ReturnKind) (cost : Float) :
    Nat → Option Float → List Execution → Except Error (List Float)
  | _, _, [] => .ok []
  | i, none, e :: rest =>
    match e.side with
    | .buy => returnsFrom k cost (i + 1) (some e.price) rest
    | .sell => .error (.executionOrder i Side.buy.name Side.sell.name)
  | i, some paid, e :: rest =>
    match e.side with
    | .sell => (returnsFrom k cost (i + 1) none rest).map (k.apply e.price paid cost :: ·)
    | .buy => .error (.executionOrder i Side.sell.name Side.buy.name)

/-- The returns of a list of executions. -/
def calculateReturns (xs : List Execution) (k : ReturnKind) (cost : Float) :
    Except Error (List Float) :=
  returnsFrom k cost 0 none xs

/-- The returns of every instrument's executions; the first failure in name order wins. -/
def returnsForAll (xs : Keyed (List Execution)) (k : ReturnKind) (cost : Float) :
    Except Error (Keyed (List Float)) :=
  xs.mapExcept fun _ es => calculateReturns es k cost

end Trading
end Backtest
