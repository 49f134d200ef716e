import Backtest.Market.StockData
/-!
# Market.Dataset — instruments and the look-ups a strategy can make

A dataset binds instrument names to their tables. Strategies observe it only through the
look-ups here, each of which names the first thing that is missing: the instrument, then the
percentile, then the indicator, then the time.
-/

namespace Backtest

/-- Why a look-up found nothing. -/
inductive LookupError where
  | unknownInstrument (instrument : String)
  | unknownIndicator (name instrument : String)
  | unknownPercentile (label : String)
  | unknownDataset (id : String)
  | timeOutOfRange (instrument : String) (time len : Nat)
  deriving Repr, DecidableEq

namespace LookupError

/-- The text of a failed look-up. -/
def message : LookupError → String
  | unknownInstrument i => "unknown instrument '" ++ i ++ "'"
  | unknownIndicator n i => "unknown indicator '" ++ n ++ "' for instrument '" ++ i ++ "'"
  | unknownPercentile l => "unknown percentile '" ++ l ++ "'"
  | unknownDataset d => "unknown dataset '" ++ d ++ "'"
  | timeOutOfRange i t n =>
    "time index " ++ toString t ++ " out of range for '" ++ i ++ "' (length " ++ toString n ++ ")"

/-- The name of the kind of failure. -/
def kind : LookupError → String
  | unknownInstrument _ => "UnknownInstrument"
  | unknownIndicator _ _ => "UnknownIndicator"
  | unknownPercentile _ => "UnknownPercentile"
  | unknownDataset _ => "UnknownDataset"
  | timeOutOfRange _ _ _ => "TimeOutOfRange"

end LookupError

/-- Instrument tables by name. -/
abbrev Dataset := Keyed StockData

namespace Dataset

/-- The table of an instrument. -/
def stock (ds : Dataset) (instrument : String) : Except LookupError StockData :=
  match ds.get? instrument with
  | some d => .ok d
  | none => .error (.unknownInstrument instrument)

/-- The value at a time of an instrument's series. -/
def valueAt {α : Type} (instrument : String) (values : List α) (time : Nat) : Except LookupError α :=
  match values[time]? with
  | some v => .ok v
  | none => .error (.timeOutOfRange instrument time values.length)

/-- The date of a time point. -/
def date (ds : Dataset) (instrument : String) (time : Nat) : Except LookupError String := do
  let d ← ds.stock instrument
  valueAt instrument d.dates time

/-- All dates of an instrument. -/
def dates (ds : Dataset) (instrument : String) : Except LookupError (List String) :=
  (ds.stock instrument).map (·.dates)

/-- The series of an indicator for an instrument. -/
def indicatorSeries (ds : Dataset) (name instrument : String) :
    Except LookupError (List Float) := do
  let d ← ds.stock instrument
  match d.series? name with
  | some s => .ok s
  | none => .error (.unknownIndicator name instrument)

/-- A quantile series of an indicator for an instrument. -/
def quantileSeries (ds : Dataset) (name pct instrument : String) :
    Except LookupError (List Float) := do
  let d ← ds.stock instrument
  match d.quantiles.get? pct with
  | none => .error (.unknownPercentile pct)
  | some inner =>
    match inner.get? name with
    | some s => .ok s
    | none => .error (.unknownIndicator name instrument)

/-- The value of an indicator at a time. -/
def indicator (ds : Dataset) (name instrument : String) (time : Nat) :
    Except LookupError Float := do
  valueAt instrument (← ds.indicatorSeries name instrument) time

/-- The value of a quantile series at a time. -/
def quantileAt (ds : Dataset) (name pct instrument : String) (time : Nat) :
    Except LookupError Float := do
  valueAt instrument (← ds.quantileSeries name pct instrument) time

/-- The dataset restricted to the named instruments; the first unknown name fails. -/
def subset (ds : Dataset) (names : List String) : Except LookupError Dataset := do
  let picked ← names.mapM fun n => do return (n, ← ds.stock n)
  return Keyed.ofList picked

end Dataset
end Backtest
