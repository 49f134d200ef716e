import Mathlib
import Backtest.Proofs.Strategy.KeyLookup
import Backtest.Proofs.Trading.Run
import Backtest.Strategy.Signals
/-!
# Proofs.Trading.Pipeline — backtesting every instrument of a dataset built from candles

The batch backtest runs a strategy over every instrument of a dataset and backtests each
instrument on its signals. A run checks, in order, its settings, that it has signals, that
they match the table's dates in number and that the table holds closing prices of that length,
and only then draws its range. On tables built from candles the strategy's signals have one
value per date and the closing prices have that length too, so none of these checks fails:
an instrument fails exactly when a minibatch does not fit its dates.

* `sampleRange_eq_error_iff` — the draw fails exactly on a minibatch that does not fit;
* `runBacktest_eq_error_iff` — past its checks, a run fails exactly where its draw fails;
* `runBacktestAll_get?` — the batch answers every instrument with signals, each by its own
  run;
* `runBacktestAll_runAll` — the batch over a strategy's signals on tables built from candles.
-/

namespace Backtest
namespace Trading

/-- A minibatch that leaves no room for a start before the last index fails the draw, and
nothing else does. -/
theorem sampleRange_eq_error_iff {len : Nat} {minibatch : Option Nat} {g : Random.ChaCha}
    {e : Error} :
    sampleRange len minibatch g = .error e ↔ ∃ size, minibatch = some size ∧
      (len < 2 ∨ size ≥ len - 1) ∧ e = .minibatchTooLarge size len := by
  unfold sampleRange
  cases minibatch with
  | none => simp
  | some size =>
    dsimp only
    split
    · rename_i hfit
      simp only [Except.error.injEq, Option.some.injEq, exists_eq_left', eq_comm]
      exact ⟨fun h => ⟨hfit, h⟩, fun h => h.2⟩
    · -- the start is drawn and the range returned
      rename_i hfit
      simp only [reduceCtorEq, Option.some.injEq, exists_eq_left', false_iff, not_and]
      exact fun h => absurd h hfit

/-- Closing prices of a table built from candles have one value per date: both drop the same
leading candles. -/
theorem closes_ofCandles (candles : List Candle) (w : Nat) :
    ∃ closes, (StockData.ofCandles candles w).series? closeName = some closes ∧
      closes.length = (StockData.ofCandles candles w).length := by
  refine ⟨_, StockData.series?_ofCandles candles w .closePrice, ?_⟩
  have hdates := (StockData.ofCandles_built candles w).dates
  have hseries := Indicator.length_series .closePrice candles w
  unfold StockData.length Indicator.trimmedSeries
  rw [hdates, List.length_drop, List.length_drop, List.length_map, hseries]
  rfl

section Run

/-- Keeping the executions of a run's result keeps its failure. -/
theorem map_fst_eq_error_iff {α β : Type} {r : Except Error (α × β)} {e : Error} :
    r.map (·.1) = .error e ↔ r = .error e := by
  cases r <;> simp [Except.map]

variable {signals : List Bool} {name : String} {data : StockData} {cfg : BacktestConfig}
  {g : Random.ChaCha} {closes : List Float}

/-- With valid settings, one signal per date and closing prices of that length, a run fails
only when it has signals and its range cannot be drawn, and then with the draw's failure. -/
theorem runBacktest_eq_error_iff (hcfg : cfg.validate = .ok ())
    (hlen : signals.length = data.length) (hcloses : data.series? closeName = some closes)
    (hclen : closes.length = data.length) {e : Error} :
    runBacktest signals name data cfg g = .error e ↔
      signals ≠ [] ∧ sampleRange signals.length cfg.minibatch g = .error e := by
  unfold runBacktest
  simp only [bind, Except.bind, pure, Except.pure, hcfg]
  by_cases hempty : signals = []
  · subst hempty
    simp
  · have hne : signals.isEmpty = false := List.isEmpty_eq_false_iff.mpr hempty
    -- the length checks pass, and the closes are taken as they are
    simp only [hne, hlen, hcloses, hclen, ne_eq, not_true_eq_false, if_false, Bool.false_eq_true,
      hempty, not_false_eq_true, true_and]
    cases sampleRange data.length cfg.minibatch g with
    | error e' => simp
    | ok r => simp

end Run

/-- With valid settings the batch succeeds. It answers exactly the instruments with signals,
each with the run of its signals on its table, on the generator of its position. -/
theorem runBacktestAll_get? {signals : Keyed (List Bool)} {ds : Dataset} {cfg : BacktestConfig}
    (hcfg : cfg.validate = .ok ()) :
    ∃ results, runBacktestAll signals ds cfg = .ok results ∧ results.keys = signals.keys ∧
      ∀ inst s, signals.get? inst = some s → ∃ i, results.get? inst = some
        (match ds.get? inst with
          | none => .error (.lookup (.unknownInstrument inst))
          | some d => (runBacktest s inst d cfg (batchGenerator cfg.seed i)).map (·.1)) := by
  unfold runBacktestAll
  simp only [bind, Except.bind, pure, Except.pure, hcfg]
  -- the results are the signals relabelled with their positions
  exact ⟨_, rfl, Keyed.keys_mapIdx _ signals, fun inst s hs => Keyed.get?_mapIdx _ hs⟩

/-- The batch over a strategy's signals on tables built from candles: with valid settings it
succeeds, answers every instrument of the dataset, and an instrument with `L` dates fails
exactly when a minibatch is set, `L ≥ 1` and the minibatch does not fit (`L < 2` or the
minibatch reaches `L - 1`), with that failure. A signal count, a missing closing price or an
unknown instrument never fails it. -/
theorem runBacktestAll_runAll {ds : Dataset} (hds : ds.FromCandles) (s : StrategyProgram)
    {cfg : BacktestConfig} (hcfg : cfg.validate = .ok ()) :
    ∃ results, runBacktestAll (s.runAll ds) ds cfg = .ok results ∧ results.keys = ds.keys ∧
      ∀ inst d, ds.get? inst = some d → ∃ r, results.get? inst = some r ∧
        ∀ e, r = .error e ↔ ∃ size, cfg.minibatch = some size ∧ 1 ≤ d.length ∧
          (d.length < 2 ∨ size ≥ d.length - 1) ∧ e = .minibatchTooLarge size d.length := by
  obtain ⟨results, hrun, hkeys, hget⟩ := @runBacktestAll_get? (s.runAll ds) ds cfg hcfg
  refine ⟨results, hrun, by rw [hkeys, StrategyProgram.runAll, Keyed.keys_mapWithKey], ?_⟩
  intro inst d hd
  have hsig : (s.runAll ds).get? inst = some (s.signals ds inst d.length) := by
    rw [StrategyProgram.runAll, Keyed.get?_mapWithKey, hd]
    rfl
  obtain ⟨i, hi⟩ := hget inst _ hsig
  rw [hd] at hi
  dsimp only at hi
  refine ⟨_, hi, fun e => ?_⟩
  -- the table is built from candles, so its closes fit its dates
  obtain ⟨candles, w, rfl⟩ := hds.get? hd
  obtain ⟨closes, hcloses, hclen⟩ := closes_ofCandles candles w
  have hlen : (s.signals ds inst (StockData.ofCandles candles w).length).length =
      (StockData.ofCandles candles w).length := by
    simp [StrategyProgram.signals]
  have hne : s.signals ds inst (StockData.ofCandles candles w).length ≠ [] ↔
      1 ≤ (StockData.ofCandles candles w).length := by
    rw [Ne, ← List.length_eq_zero_iff, hlen, Nat.one_le_iff_ne_zero]
  rw [map_fst_eq_error_iff, runBacktest_eq_error_iff hcfg hlen hcloses hclen, hne, hlen,
    sampleRange_eq_error_iff]
  constructor
  · rintro ⟨hpos, size, hsize, hfit, rfl⟩
    exact ⟨size, hsize, hpos, hfit, rfl⟩
  · rintro ⟨size, hsize, hpos, hfit, rfl⟩
    exact ⟨hpos, size, hsize, hfit, rfl⟩

/-- Six candles with a window of one leave four dates, and a minibatch of three reaches the last
of them: the batch succeeds and fails its one instrument on the minibatch. -/
theorem runBacktestAll_runAll_tightMinibatch :
    let candles : List Candle := (List.range 6).map fun i =>
      ⟨toString i, 1.0, 2.0, 0.5, 1.5, 100.0⟩
    let ds : Dataset := Keyed.ofList [("X", StockData.ofCandles candles 1)]
    let cfg : BacktestConfig := ⟨.marketTiming, 0.0, some 3, some 7⟩
    ds.FromCandles ∧ cfg.validate = .ok () ∧
      ∃ results, runBacktestAll ((⟨"true", .bool true⟩ : StrategyProgram).runAll ds) ds cfg =
          .ok results ∧ results.keys = ds.keys ∧
        ∀ inst d, ds.get? inst = some d → ∃ r, results.get? inst = some r ∧
          ∀ e, r = .error e ↔ ∃ size, cfg.minibatch = some size ∧ 1 ≤ d.length ∧
            (d.length < 2 ∨ size ≥ d.length - 1) ∧ e = .minibatchTooLarge size d.length := by
  intro candles ds cfg
  have hds : ds.FromCandles :=
    Dataset.fromCandles_ofList fun _ he => ⟨candles, 1, by rw [List.mem_singleton.mp he]⟩
  have hcfg : cfg.validate = .ok () := by
    simp only [cfg]
    rfl
  exact ⟨hds, hcfg, runBacktestAll_runAll hds _ hcfg⟩

end Trading
end Backtest
