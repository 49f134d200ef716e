import Backtest.Text.Blank
/-!
# Market.Universe — instrument lists

An instrument list is written as names separated by commas. Each name is cut of blanks; an
empty name or a name given twice makes the list invalid, and the first such fault is reported.
-/

namespace Backtest

/-- Why an instrument list is invalid. -/
inductive UniverseError where
  | emptyToken
  | duplicate (name : String)
  deriving Repr, DecidableEq

namespace UniverseError

/-- The text of an invalid list. -/
def message : UniverseError → String
  | emptyToken => "empty token in instrument list"
  | duplicate n => "duplicate instrument: " ++ n

/-- The name of the kind of fault. -/
def kind : UniverseError → String
  | emptyToken => "EmptyToken"
  | duplicate _ => "DuplicateInstrument"

end UniverseError

/-- Checks the names of a list in order, given those already read. -/
def checkNames (seen : List String) : List String → Except UniverseError (List String)
  | [] => .ok seen.reverse
  | t :: rest =>
    let name := Text.trimBlanks t
    if name.isEmpty then .error .emptyToken
    else if seen.contains name then .error (.duplicate name)
    else checkNames (name :: seen) rest

/-- The instrument names of a comma-separated list, in the order given. -/
def parseInstruments (input : String) : Except UniverseError (List String) :=
  checkNames [] (input.splitOn ",")

end Backtest
