import Mathlib
import Backtest.Market.StockData
import Backtest.Proofs.Data.Keyed
import Backtest.Proofs.Market.Quantile
/-!
# Proofs.Market.Alignment — the shape of an indicator table built from candles

`StockData.ofCandles` adds the eighteen indicators one after the other. Each addition binds the
indicator's trimmed series under its name and, under each of the six percentile labels, its
trimmed quantile series. So after all of them the table has exactly the eighteen names as
indicator keys, exactly the six labels as quantile keys, each label holding the eighteen names,
and every series has one value per date.

The lengths are exact over the naturals: `n - 2w` for `n` candles and a window `w`, with no
saturation. The trims that saturate at the largest count only meet series that are not longer
than a count can be, and there they cut as much as `2w` would.

* `Indicator.length_trimmedSeries`, `StockData.length_quantileSeries` — the lengths of the
  series one indicator contributes;
* `StockData.Built` — what the table holds after some indicators have been added, and
  `StockData.ofCandles_built` that the whole construction keeps it;
* `StockData.ofCandles_shape` — keys, labels and lengths of every table built from candles.
-/

namespace Backtest

/-! ## Saturated trims -/

/-- Twice a window, saturated at the largest count, cuts a list no longer than a count exactly
as much as twice the window does. -/
theorem Size.sub_satMul_two {n : Nat} (w : Nat) (hn : n ≤ Size.max) :
    n - Size.satMul w 2 = n - 2 * w := by
  unfold Size.satMul
  simp only [Nat.min_def]
  split <;> omega

/-! ## Series lengths -/

/-- A fold that puts one value in front of its list per element adds the elements' number to
the list's length. -/
theorem length_foldl_cons {α β γ : Type} (f : β × List γ → α → β × List γ)
    (hf : ∀ acc a, (f acc a).2.length = acc.2.length + 1) (l : List α) (acc : β × List γ) :
    (l.foldl f acc).2.length = acc.2.length + l.length := by
  induction l generalizing acc with
  | nil => simp
  | cons a rest ih =>
    rw [List.foldl_cons, ih, hf]
    simp only [List.length_cons]
    omega

namespace Indicator

theorem mem_all (k : Indicator) : k ∈ all := by
  cases k <;> simp [all]

/-- The canonical name of an indicator names it. -/
theorem ofName?_name (k : Indicator) : ofName? k.name = some k := by
  cases k <;> rfl

theorem name_injective {k k' : Indicator} (h : k.name = k'.name) : k = k' := by
  have := ofName?_name k
  rw [h, ofName?_name] at this
  exact (Option.some.inj this).symm

theorem length_windows {α : Type} (xs : List α) (w : Nat) :
    (windows xs w).length = xs.length - w := by
  simp [windows]

theorem length_emaSeries (candles : List Candle) (w : Nat) :
    (emaSeries candles w).length = candles.length := by
  unfold emaSeries
  rw [List.length_reverse, length_foldl_cons _ (fun _ _ => rfl)]
  simp

/-- An instant or lagged series has a value per candle, a windowed one per full window. -/
theorem length_series (k : Indicator) (candles : List Candle) (w : Nat) :
    (k.series candles w).length =
      if k.shape = .windowed then candles.length - w else candles.length := by
  unfold series
  cases k.shape <;> simp [length_emaSeries, length_windows]

/-- Every trimmed indicator series has `n - 2w` values. -/
theorem length_trimmedSeries (k : Indicator) (candles : List Candle) (w : Nat)
    (hn : candles.length ≤ Size.max) :
    (k.trimmedSeries candles w).length = candles.length - 2 * w := by
  have hsat := Size.sub_satMul_two w hn
  unfold trimmedSeries trim
  rw [List.length_drop, length_series]
  cases k.shape <;> simp <;> omega

end Indicator

namespace Quantile

theorem length_rolling (series ps : List Float) (w : Nat) :
    (rolling series ps w).length = ps.length := by
  rw [rolling_eq_map_windowQuantiles, List.length_map]

/-- Each rolling quantile series has one value per window start. -/
theorem length_of_mem_rolling {series ps xs : List Float} {w : Nat}
    (h : xs ∈ rolling series ps w) : xs.length = series.length - w := by
  rw [rolling_eq_map_windowQuantiles] at h
  obtain ⟨p, _, rfl⟩ := List.mem_map.mp h
  exact length_windowQuantiles series w p

theorem labels_nodup : labels.Nodup := by
  decide

theorem length_labels : labels.length = percentiles.length := by
  simp [labels]

end Quantile

namespace StockData

/-- Every trimmed quantile series of an indicator has `n - 2w` values, whatever its shape: the
rolling window costs `w` values, and instant and lagged series are cut by `w` more. -/
theorem length_quantileSeries (k : Indicator) (candles : List Candle) (w : Nat)
    {xs : List Float}
    (h : xs ∈ Quantile.rolling (k.series candles w) Quantile.percentiles w) :
    (xs.drop (quantileTrim k w)).length = candles.length - 2 * w := by
  rw [List.length_drop, Quantile.length_of_mem_rolling h, Indicator.length_series]
  unfold quantileTrim
  cases k.shape <;> simp <;> omega

/-! ## Adding one indicator -/

/-- One step of the quantile update: the label's inner map gains the indicator's series. -/
def quantileStep (name : String) (trim : Nat) (q : Keyed (Keyed (List Float)))
    (e : String × List Float) : Keyed (Keyed (List Float)) :=
  q.insert e.1 (((q.get? e.1).getD Keyed.empty).insert name (e.2.drop trim))

/-- The quantile update of `addIndicator`, label by label. -/
theorem addIndicator_quantiles (candles : List Candle) (w : Nat) (d : StockData) (k : Indicator) :
    (addIndicator candles w d k).quantiles =
      (Quantile.labels.zip (Quantile.rolling (k.series candles w) Quantile.percentiles w)).foldl
        (quantileStep k.name (quantileTrim k w)) d.quantiles :=
  rfl

theorem addIndicator_indicators (candles : List Candle) (w : Nat) (d : StockData)
    (k : Indicator) :
    (addIndicator candles w d k).indicators =
      d.indicators.insert k.name (k.trimmedSeries candles w) :=
  rfl

theorem addIndicator_dates (candles : List Candle) (w : Nat) (d : StockData) (k : Indicator) :
    (addIndicator candles w d k).dates = d.dates :=
  rfl

section QuantileFold

variable {labels ks : List String} {name : String} {trim len : Nat}

/-- The inner maps of the labels in `done` hold `name` on top of `ks`; the others hold `ks`. -/
def Gained (name : String) (ks done : List String) (len : Nat) (l : String)
    (inner : Keyed (List Float)) : Prop :=
  inner.Spans (if l ∈ done then name :: ks else ks) fun _ s => s.length = len

/-- Updating the labels of `zs`, each once, moves them into `done`. -/
theorem spans_foldl_quantileStep (zs : List (String × List Float)) (done : List String)
    (hnd : (zs.map (·.1)).Nodup) (hfresh : ∀ e ∈ zs, e.1 ∉ done)
    (hlab : ∀ e ∈ zs, e.1 ∈ labels) (hlen : ∀ e ∈ zs, (e.2.drop trim).length = len)
    (q : Keyed (Keyed (List Float))) (hq : q.Spans labels (Gained name ks done len)) :
    (zs.foldl (quantileStep name trim) q).Spans labels
      (Gained name ks (done ++ zs.map (·.1)) len) := by
  induction zs generalizing q done with
  | nil => simpa using hq
  | cons e rest ih =>
    rw [List.map_cons, List.nodup_cons] at hnd
    have hlbl : e.1 ∈ labels := hlab e (List.mem_cons_self ..)
    -- the label still holds `ks` alone, since it is not done yet
    obtain ⟨inner, hget, hinner⟩ := hq.exists_get? hlbl
    have hks : inner.Spans ks fun _ s => s.length = len := by
      simpa [Gained, hfresh e (List.mem_cons_self ..)] using hinner
    have hinner' : (inner.insert name (e.2.drop trim)).Spans (name :: ks)
        fun _ s => s.length = len :=
      hks.insert (hlen e (List.mem_cons_self ..)) fun _ _ _ h => h
    have hstep : (quantileStep name trim q e).Spans labels (Gained name ks (done ++ [e.1]) len) := by
      unfold quantileStep
      rw [hget, Option.getD_some]
      have hins : (q.insert e.1 (inner.insert name (e.2.drop trim))).Spans (e.1 :: labels)
          (Gained name ks (done ++ [e.1]) len) := by
        refine hq.insert ?_ ?_
        · simpa [Gained] using hinner'
        · -- the other labels are as they were
          intro l v hl hv
          simpa [Gained, hl] using hv
      refine hins.congr fun l => ⟨fun hl => ?_, List.mem_cons_of_mem _⟩
      rcases List.mem_cons.mp hl with rfl | hl
      · exact hlbl
      · exact hl
    have := ih (done ++ [e.1]) hnd.2
      (fun x hx => by
        simp only [List.mem_append, List.mem_singleton, not_or]
        refine ⟨hfresh x (List.mem_cons_of_mem _ hx), fun h => hnd.1 ?_⟩
        exact h ▸ List.mem_map.mpr ⟨x, hx, rfl⟩)
      (fun x hx => hlab x (List.mem_cons_of_mem _ hx))
      (fun x hx => hlen x (List.mem_cons_of_mem _ hx)) _ hstep
    simpa using this

end QuantileFold

/-- What a table holds once the indicators `ks` have been added to it: dates cut by twice the
window, each added indicator's trimmed series under its name, and under each kept label an
inner map of the added names whose series have `n - 2w` values. -/
structure Built (candles : List Candle) (w : Nat) (ks : List Indicator) (d : StockData) :
    Prop where
  dates : d.dates = (candles.map Candle.date).drop (Size.satMul w 2)
  indicators : d.indicators.Spans (ks.map Indicator.name)
    fun name s => ∃ k : Indicator, name = k.name ∧ s = k.trimmedSeries candles w
  quantiles : d.quantiles.Spans Quantile.labels
    fun _ inner => inner.Spans (ks.map Indicator.name)
      fun _ s => s.length = candles.length - 2 * w

/-- Adding an indicator binds its name in the series and under every label. -/
theorem Built.addIndicator {candles : List Candle} {w : Nat} {ks : List Indicator}
    {d : StockData} (h : Built candles w ks d) (k : Indicator) :
    Built candles w (ks ++ [k]) (addIndicator candles w d k) := by
  have hnames : ∀ x, x ∈ k.name :: ks.map Indicator.name ↔ x ∈ (ks ++ [k]).map Indicator.name := by
    simp [or_comm]
  refine ⟨h.dates, ?_, ?_⟩
  · rw [addIndicator_indicators]
    exact (h.indicators.insert ⟨k, rfl, rfl⟩ fun _ _ _ hv => hv).congr hnames
  · rw [addIndicator_quantiles]
    have hzip : (Quantile.labels.zip
        (Quantile.rolling (k.series candles w) Quantile.percentiles w)).map (·.1) =
        Quantile.labels := by
      rw [List.map_fst_zip]
      rw [Quantile.length_rolling, Quantile.length_labels]
    -- no label is done yet: every inner map holds the names added before
    have hstart : d.quantiles.Spans Quantile.labels
        (Gained k.name (ks.map Indicator.name) [] (candles.length - 2 * w)) :=
      h.quantiles.mono fun _ _ _ hv => by simpa [Gained] using hv
    have hfold := spans_foldl_quantileStep _ [] (by rw [hzip]; exact Quantile.labels_nodup)
      (fun _ _ => List.not_mem_nil)
      (fun e he => hzip ▸ List.mem_map.mpr ⟨e, he, rfl⟩)
      (fun e he => length_quantileSeries k candles w (List.of_mem_zip he).2) _ hstart
    rw [List.nil_append, hzip] at hfold
    -- now every label is done
    refine hfold.mono fun l inner hl hv => ?_
    have hv' : inner.Spans (k.name :: ks.map Indicator.name)
        fun _ s => s.length = candles.length - 2 * w := by
      simpa [Gained, hl] using hv
    exact hv'.congr hnames

/-- The table before any indicator is added. -/
theorem built_start (candles : List Candle) (w : Nat) :
    Built candles w []
      { dates := (candles.map Candle.date).drop (Size.satMul w 2)
        indicators := Keyed.empty
        quantiles := Keyed.ofList (Quantile.labels.map fun l => (l, Keyed.empty)) } := by
  refine ⟨rfl, Keyed.Spans.empty, ?_⟩
  have h : (Keyed.ofList (Quantile.labels.map fun l => (l, Keyed.empty))).Spans
      ((Quantile.labels.map fun l => (l, Keyed.empty)).map (·.1))
      fun _ (inner : Keyed (List Float)) => inner.Spans (([] : List Indicator).map Indicator.name)
        fun _ s => s.length = candles.length - 2 * w :=
    Keyed.Spans.ofList fun e he => by
      obtain ⟨l, _, rfl⟩ := List.mem_map.mp he
      exact Keyed.Spans.empty
  simpa [Function.comp_def] using h

/-- Adding indicators one after the other keeps the construction's description. -/
theorem Built.foldl {candles : List Candle} {w : Nat} {ks : List Indicator} {d : StockData}
    (h : Built candles w ks d) (more : List Indicator) :
    Built candles w (ks ++ more) (more.foldl (StockData.addIndicator candles w) d) := by
  induction more generalizing ks d with
  | nil => simpa using h
  | cons k rest ih =>
    simpa using ih (h.addIndicator k)

theorem ofCandles_built (candles : List Candle) (w : Nat) :
    Built candles w Indicator.all (ofCandles candles w) := by
  unfold ofCandles
  exact (built_start candles w).foldl Indicator.all

theorem names_nodup : Indicator.names.Nodup := by
  decide

/-- Each indicator's series is bound under its name. -/
theorem series?_ofCandles (candles : List Candle) (w : Nat) (k : Indicator) :
    (ofCandles candles w).series? k.name = some (k.trimmedSeries candles w) := by
  have hb := (ofCandles_built candles w).indicators
  obtain ⟨s, hs, k', hk', rfl⟩ := hb.exists_get? (List.mem_map.mpr ⟨k, Indicator.mem_all k, rfl⟩)
  obtain rfl := Indicator.name_injective hk'
  exact hs

/-- Each kept label binds an inner map holding every indicator's name. -/
theorem quantiles_ofCandles (candles : List Candle) (w : Nat) {l : String}
    (hl : l ∈ Quantile.labels) :
    ∃ inner, (ofCandles candles w).quantiles.get? l = some inner ∧
      ∀ k : Indicator, ∃ s, inner.get? k.name = some s ∧ s.length = candles.length - 2 * w := by
  obtain ⟨inner, hget, hspan⟩ := (ofCandles_built candles w).quantiles.exists_get? hl
  refine ⟨inner, hget, fun k => ?_⟩
  exact hspan.exists_get? (List.mem_map.mpr ⟨k, Indicator.mem_all k, rfl⟩)

/-- The quantile labels are the six two-decimal texts of the kept percentiles. -/
theorem labels_eq : Quantile.labels = ["0.05", "0.15", "0.25", "0.75", "0.85", "0.95"] := by
  decide

/-- A table built from candles is aligned once its series have the dates' length. -/
theorem isAligned_of_lengths {d : StockData}
    (hind : ∀ s ∈ d.indicators.values, s.length = d.dates.length)
    (hq : ∀ inner ∈ d.quantiles.values, ∀ s ∈ inner.values, s.length = d.dates.length) :
    d.isAligned = true := by
  unfold isAligned
  simp only [Bool.and_eq_true, List.all_eq_true, beq_iff_eq]
  exact ⟨hind, hq⟩

/-- A table built from `n` candles with any window `w` binds exactly the eighteen indicator
names and exactly the six percentile labels, each label binding the eighteen names; its dates
and all its series have `n - 2w` values, so it is aligned. -/
theorem ofCandles_shape (candles : List Candle) (w : Nat) (hn : candles.length ≤ Size.max) :
    (ofCandles candles w).indicators.keys.Perm Indicator.names ∧
      (ofCandles candles w).quantiles.keys = ["0.05", "0.15", "0.25", "0.75", "0.85", "0.95"] ∧
      (∀ inner ∈ (ofCandles candles w).quantiles.values, inner.keys.Perm Indicator.names) ∧
      (ofCandles candles w).dates.length = candles.length - 2 * w ∧
      (∀ s ∈ (ofCandles candles w).indicators.values, s.length = candles.length - 2 * w) ∧
      (∀ inner ∈ (ofCandles candles w).quantiles.values, ∀ s ∈ inner.values,
        s.length = candles.length - 2 * w) ∧
      (ofCandles candles w).isAligned = true := by
  have hb := ofCandles_built candles w
  have hdates : (ofCandles candles w).dates.length = candles.length - 2 * w := by
    rw [hb.dates, List.length_drop, List.length_map, Size.sub_satMul_two w hn]
  have hind : ∀ s ∈ (ofCandles candles w).indicators.values,
      s.length = candles.length - 2 * w := by
    intro s hs
    obtain ⟨_, _, k, _, rfl⟩ := hb.indicators.of_mem_values hs
    exact Indicator.length_trimmedSeries k candles w hn
  have hquant : ∀ inner ∈ (ofCandles candles w).quantiles.values, ∀ s ∈ inner.values,
      s.length = candles.length - 2 * w := by
    intro inner hinner s hs
    obtain ⟨_, _, hspan⟩ := hb.quantiles.of_mem_values hinner
    obtain ⟨_, _, hlen⟩ := hspan.of_mem_values hs
    exact hlen
  refine ⟨hb.indicators.perm names_nodup, ?_, ?_, hdates, hind, hquant, ?_⟩
  · -- ascending keys spanning the ascending labels are the labels
    rw [← labels_eq]
    exact List.Subset.antisymm_of_pairwise (ofCandles candles w).quantiles.ascending
      (by rw [labels_eq]; decide)
      (fun x hx => (hb.quantiles.mem_keys x).mp hx) (fun x hx => (hb.quantiles.mem_keys x).mpr hx)
  · intro inner hinner
    obtain ⟨_, _, hspan⟩ := hb.quantiles.of_mem_values hinner
    exact hspan.perm names_nodup
  · exact isAligned_of_lengths (fun s hs => (hind s hs).trans hdates.symm)
      (fun inner hi s hs => (hquant inner hi s hs).trans hdates.symm)

/-- Five candles and a window so wide that twice it passes the largest count: the table is
empty and aligned, with all its keys. -/
theorem ofCandles_shape_wideWindow :
    let candles : List Candle := (List.range 5).map fun i =>
      ⟨toString i, 1.0, 2.0, 0.5, 1.5, 100.0⟩
    candles.length ≤ Size.max ∧
      (ofCandles candles (Nat.pow 2 63)).indicators.keys.Perm Indicator.names ∧
      (ofCandles candles (Nat.pow 2 63)).quantiles.keys =
        ["0.05", "0.15", "0.25", "0.75", "0.85", "0.95"] ∧
      (∀ inner ∈ (ofCandles candles (Nat.pow 2 63)).quantiles.values,
        inner.keys.Perm Indicator.names) ∧
      (ofCandles candles (Nat.pow 2 63)).dates.length = candles.length - 2 * Nat.pow 2 63 ∧
      (∀ s ∈ (ofCandles candles (Nat.pow 2 63)).indicators.values,
        s.length = candles.length - 2 * Nat.pow 2 63) ∧
      (∀ inner ∈ (ofCandles candles (Nat.pow 2 63)).quantiles.values, ∀ s ∈ inner.values,
        s.length = candles.length - 2 * Nat.pow 2 63) ∧
      (ofCandles candles (Nat.pow 2 63)).isAligned = true := by
  intro candles
  have hn : candles.length ≤ Size.max := by
    simp [candles, Size.max]
  exact ⟨hn, ofCandles_shape candles (Nat.pow 2 63) hn⟩

end StockData
end Backtest
