/-!
# Trading.Timing — market-timing states of a signal stream

Five states track a stream of booleans: from the neutral state a `true` enters, a second `true`
holds the position, a `false` exits and a second `false` stays out. Only entering and exiting
are acted on. The last signal of a stream is read as `false`, so a stream never ends holding.
-/

namespace Backtest
namespace Trading

/-- The market-timing states. -/
inductive TimingState where
  | neutralHold
  | enter
  | enterHold
  | exit
  | exitHold
  deriving Repr, DecidableEq

namespace TimingState

/-- The state after one more signal. -/
def next : TimingState → Bool → TimingState
  | neutralHold, true => enter
  | neutralHold, false => neutralHold
  | enter, true => enterHold
  | enter, false => exit
  | enterHold, true => enterHold
  | enterHold, false => exit
  | exit, true => enter
  | exit, false => exitHold
  | exitHold, true => enter
  | exitHold, false => exitHold

/-- The name of a state. -/
def name : TimingState → String
  | neutralHold => "NeutralHold"
  | enter => "Enter"
  | enterHold => "EnterHold"
  | exit => "Exit"
  | exitHold => "ExitHold"

/-- The states after each of a list of inputs, from a start state. -/
def trace (start : TimingState) (inputs : List Bool) : List TimingState :=
  (inputs.foldl (fun (acc : TimingState × List TimingState) b =>
    let s := acc.1.next b
    (s, s :: acc.2)) (start, [])).2.reverse

end TimingState

/-- The timing states of a signal stream from the neutral state, its last signal read as
`false`. -/
def timingStates (signals : List Bool) : List TimingState :=
  let last := signals.length - 1
  TimingState.trace .neutralHold
    ((signals.zip (List.range signals.length)).map fun (b, i) => b && i != last)

end Trading
end Backtest
