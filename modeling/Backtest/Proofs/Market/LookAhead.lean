import Mathlib
import Backtest.Proofs.Market.Alignment
/-!
# Proofs.Market.LookAhead — a table reads nothing after its own candle

A table built from candles `c` with window `w` sets index `t` against candle `t + 2w`. There
it holds the date of that candle, an instant indicator of it, the exponential average of the
candles up to it, a windowed indicator of the `w` candles before it, and rolling quantiles of
the `w` raw values before it (for windowed kinds, of the `w` windowed values from `t`). So
nothing at index `t` reads a candle after `t + 2w`: two candle lists that agree up to that
candle give the same table at `t`.

* `Indicator.emaSeries_take`, `Indicator.windows_take`, `Indicator.series_take` — the raw
  series of the first `m` candles is a prefix of the raw series;
* `StockData.quantileSeries?_ofCandles` — the quantile series a table binds, found through the
  label-by-label update of each indicator;
* `StockData.seriesAt_ofCandles`, `StockData.quantileAt_ofCandles` — the value at index `t`;
* `StockData.ofCandles_noLookAhead` — every series lines up with its candle, and the table at
  `t` is a function of the candles up to `t + 2w`.
-/

namespace Backtest

/-! ## Raw series of the first candles -/

/-- A fold that puts one value in front of its list per element keeps what it started with
at the back. -/
theorem foldl_pushes {α β γ : Type} (f : β × List γ → α → β × List γ)
    (hf : ∀ acc a, ∃ v, (f acc a).2 = v :: acc.2) (l : List α) (acc : β × List γ) :
    ∃ front, (l.foldl f acc).2 = front ++ acc.2 := by
  induction l generalizing acc with
  | nil => exact ⟨[], rfl⟩
  | cons a rest ih =>
    obtain ⟨front, hfront⟩ := ih (f acc a)
    obtain ⟨v, hv⟩ := hf acc a
    refine ⟨front ++ [v], ?_⟩
    rw [List.foldl_cons, hfront, hv, List.append_assoc, List.singleton_append]

/-- Read in order, the values such a fold puts out for more elements extend those for fewer:
the future cannot change what was put out before it. -/
theorem foldl_pushes_append {α β γ : Type} (f : β × List γ → α → β × List γ)
    (hf : ∀ acc a, ∃ v, (f acc a).2 = v :: acc.2) (l₁ l₂ : List α) (init : β × List γ) :
    ∃ tail, ((l₁ ++ l₂).foldl f init).2.reverse = (l₁.foldl f init).2.reverse ++ tail := by
  rw [List.foldl_append]
  obtain ⟨front, hfront⟩ := foldl_pushes f hf l₂ (l₁.foldl f init)
  exact ⟨front.reverse, by rw [hfront, List.reverse_append]⟩

namespace Indicator

theorem emaSeries_append (l₁ l₂ : List Candle) (w : Nat) :
    ∃ tail, emaSeries (l₁ ++ l₂) w = emaSeries l₁ w ++ tail := by
  simp only [emaSeries]
  refine foldl_pushes_append _ ?_ l₁ l₂ _
  -- each candle puts exactly one average in front
  intro acc c
  exact ⟨_, rfl⟩

/-- The exponential average of the first `m` candles is the first `m` values of it. -/
theorem emaSeries_take (candles : List Candle) (w : Nat) {m : Nat} (hm : m ≤ candles.length) :
    emaSeries (candles.take m) w = (emaSeries candles w).take m := by
  obtain ⟨tail, htail⟩ := emaSeries_append (candles.take m) (candles.drop m) w
  rw [List.take_append_drop] at htail
  have hlen : (emaSeries (candles.take m) w).length = m := by
    rw [length_emaSeries, List.length_take]
    omega
  rw [htail, List.take_left' hlen]

theorem getElem?_windows {α : Type} (xs : List α) (w : Nat) {i : Nat} (hi : i < xs.length - w) :
    (windows xs w)[i]? = some ((xs.drop i).take w) := by
  simp [windows, List.getElem?_range hi]

/-- The runs of the first `m` elements are the runs that end by `m`. -/
theorem windows_take {α : Type} (xs : List α) (w : Nat) {m : Nat} (hm : m ≤ xs.length) :
    windows (xs.take m) w = (windows xs w).take (m - w) := by
  simp only [windows, List.length_take, ← List.map_take, List.take_range]
  rw [show min m xs.length - w = min (m - w) (xs.length - w) by omega]
  refine List.map_congr_left fun i hi => ?_
  rw [List.mem_range] at hi
  -- a run starting at `i < m - w` ends before `m`
  rw [List.drop_take, List.take_take, show min w (m - i) = w by omega]

/-- The raw series of the first `m` candles is a prefix of the raw series: the first `m`
values, or for a windowed kind the first `m - w`. -/
theorem series_take (k : Indicator) (candles : List Candle) (w : Nat) {m : Nat}
    (hm : m ≤ candles.length) :
    k.series (candles.take m) w =
      (k.series candles w).take (if k.shape = .windowed then m - w else m) := by
  unfold series
  cases k.shape with
  | instant => simp [List.map_take]
  | lagged => simp [emaSeries_take candles w hm]
  | windowed => simp [windows_take candles w hm, List.map_take]

end Indicator

/-- Below the largest count, twice a window does not saturate. -/
theorem Size.satMul_two {w : Nat} (h : 2 * w ≤ Size.max) : Size.satMul w 2 = 2 * w := by
  unfold Size.satMul
  simp only [Nat.min_def]
  split <;> omega

/-! ## The quantile series of a table -/

namespace StockData

section QuantileLookup

variable {name : String} {trim : Nat}

/-- One label's update binds the indicator's series under that label and changes nothing
else. -/
theorem lookup_quantileStep (q : Keyed (Keyed (List Float))) (e : String × List Float)
    (l x : String) :
    ((quantileStep name trim q e).get? l).bind (·.get? x) =
      if l = e.1 ∧ x = name then some (e.2.drop trim) else (q.get? l).bind (·.get? x) := by
  unfold quantileStep
  rw [Keyed.get?_insert]
  by_cases hl : l = e.1
  · subst hl
    simp only [if_true, Option.bind_some, Keyed.get?_insert, true_and]
    by_cases hx : x = name
    · simp [hx]
    · -- the label's other names are those it held, and none if it was absent
      simp only [hx, if_false]
      cases q.get? e.1 with
      | none => rfl
      | some inner => rfl
  · simp [hl]

/-- Names other than the indicator's, and labels the update does not list, keep their
series. -/
theorem lookup_foldl_quantileStep_of_ne (zs : List (String × List Float)) {l x : String}
    (h : x ≠ name ∨ l ∉ zs.map (·.1)) (q : Keyed (Keyed (List Float))) :
    ((zs.foldl (quantileStep name trim) q).get? l).bind (·.get? x) =
      (q.get? l).bind (·.get? x) := by
  induction zs generalizing q with
  | nil => rfl
  | cons e rest ih =>
    have hrest : x ≠ name ∨ l ∉ rest.map (·.1) := by
      rcases h with h | h
      · exact .inl h
      · exact .inr fun hm => h (List.mem_cons_of_mem _ hm)
    rw [List.foldl_cons, ih hrest, lookup_quantileStep]
    -- the step itself binds a different name or a different label
    have hne : ¬(l = e.1 ∧ x = name) := by
      rintro ⟨rfl, rfl⟩
      rcases h with h | h
      · exact h rfl
      · exact h (List.mem_cons_self ..)
    rw [if_neg hne]

/-- A label listed once binds the indicator's series it is listed with. -/
theorem lookup_foldl_quantileStep_self (zs : List (String × List Float))
    (hnd : (zs.map (·.1)).Nodup) {e : String × List Float} (he : e ∈ zs)
    (q : Keyed (Keyed (List Float))) :
    ((zs.foldl (quantileStep name trim) q).get? e.1).bind (·.get? name) =
      some (e.2.drop trim) := by
  induction zs generalizing q with
  | nil => simp at he
  | cons e' rest ih =>
    rw [List.map_cons, List.nodup_cons] at hnd
    rw [List.foldl_cons]
    rcases List.mem_cons.mp he with rfl | he'
    · -- the label is bound now, and no later step lists it again
      rw [lookup_foldl_quantileStep_of_ne rest (.inr hnd.1), lookup_quantileStep]
      simp
    · exact ih hnd.2 he' _

end QuantileLookup

section Table

variable {candles : List Candle} {w : Nat}

/-- Adding an indicator leaves the quantile series of the other names as they were. -/
theorem quantileSeries?_addIndicator_of_ne (d : StockData) {k : Indicator} {pct name : String}
    (h : name ≠ k.name) :
    (addIndicator candles w d k).quantileSeries? pct name = d.quantileSeries? pct name := by
  unfold quantileSeries?
  rw [addIndicator_quantiles]
  exact lookup_foldl_quantileStep_of_ne _ (.inl h) _

/-- The labels and the rolling quantiles of a raw series, zipped, are one entry per kept
percentile: its label with its rolling quantiles. -/
theorem labels_zip_rolling (raw : List Float) (w : Nat) :
    Quantile.labels.zip (Quantile.rolling raw Quantile.percentiles w) =
      Quantile.percentiles.map fun p => (Quantile.label p,
        (List.range (raw.length - w)).map fun i => Quantile.quantile ((raw.drop i).take w) p) := by
  unfold Quantile.labels
  rw [Quantile.rolling_eq_map_windowQuantiles, List.zip_map']
  simp [Quantile.windowQuantiles]

/-- Adding an indicator binds, under each kept percentile's label, its rolling quantiles cut by
the quantile trim. -/
theorem quantileSeries?_addIndicator_self (d : StockData) (k : Indicator) {p : Float}
    (hp : p ∈ Quantile.percentiles) :
    (addIndicator candles w d k).quantileSeries? (Quantile.label p) k.name =
      some (((List.range ((k.series candles w).length - w)).map fun i =>
        Quantile.quantile (((k.series candles w).drop i).take w) p).drop (quantileTrim k w)) := by
  unfold quantileSeries?
  rw [addIndicator_quantiles, labels_zip_rolling]
  have hnd : ((Quantile.percentiles.map fun p => (Quantile.label p,
      (List.range ((k.series candles w).length - w)).map fun i =>
        Quantile.quantile (((k.series candles w).drop i).take w) p)).map (·.1)).Nodup := by
    have hlabels := Quantile.labels_nodup
    unfold Quantile.labels at hlabels
    simpa [List.map_map, Function.comp_def] using hlabels
  exact lookup_foldl_quantileStep_self _ hnd (List.mem_map_of_mem hp) _

/-- Adding other indicators after it keeps an indicator's quantile series. -/
theorem quantileSeries?_foldl_of_ne (ks : List Indicator) (d : StockData) {pct name : String}
    (h : ∀ k ∈ ks, name ≠ k.name) :
    (ks.foldl (addIndicator candles w) d).quantileSeries? pct name =
      d.quantileSeries? pct name := by
  induction ks generalizing d with
  | nil => rfl
  | cons k rest ih =>
    rw [List.foldl_cons, ih _ fun k' hk' => h k' (List.mem_cons_of_mem _ hk'),
      quantileSeries?_addIndicator_of_ne _ (h k (List.mem_cons_self ..))]

theorem all_nodup : Indicator.all.Nodup := by
  decide

/-- Each kept percentile's label binds every indicator's rolling quantiles, cut by the
quantile trim. -/
theorem quantileSeries?_ofCandles (k : Indicator) {p : Float} (hp : p ∈ Quantile.percentiles) :
    (ofCandles candles w).quantileSeries? (Quantile.label p) k.name =
      some (((List.range ((k.series candles w).length - w)).map fun i =>
        Quantile.quantile (((k.series candles w).drop i).take w) p).drop (quantileTrim k w)) := by
  obtain ⟨pre, post, hsplit⟩ := List.append_of_mem (Indicator.mem_all k)
  -- the indicators after `k` have other names, since every indicator is listed once
  have hpost : ∀ k' ∈ post, k.name ≠ k'.name := by
    intro k' hk' heq
    have hnd := all_nodup
    rw [hsplit] at hnd
    have hk : k ∉ post := (List.nodup_cons.mp (List.Nodup.of_append_right hnd)).1
    exact hk (Indicator.name_injective heq ▸ hk')
  simp only [ofCandles]
  rw [hsplit, List.foldl_append, List.foldl_cons, quantileSeries?_foldl_of_ne post _ hpost,
    quantileSeries?_addIndicator_self _ _ hp]

/-- A name that is no indicator's has no series. -/
theorem series?_ofCandles_eq_none {name : String} (h : ∀ k : Indicator, name ≠ k.name) :
    (ofCandles candles w).series? name = none := by
  cases hs : (ofCandles candles w).series? name with
  | none => rfl
  | some s =>
    obtain ⟨k, hk, -⟩ := (ofCandles_built candles w).indicators.lookup name s hs
    exact absurd hk (h k)

/-- Only a kept percentile's label and an indicator's name have a quantile series. -/
theorem quantileSeries?_ofCandles_eq_none {pct name : String}
    (h : (∀ p ∈ Quantile.percentiles, pct ≠ Quantile.label p) ∨
      ∀ k : Indicator, name ≠ k.name) :
    (ofCandles candles w).quantileSeries? pct name = none := by
  unfold quantileSeries?
  have hb := (ofCandles_built candles w).quantiles
  cases hq : (ofCandles candles w).quantiles.get? pct with
  | none => rfl
  | some inner =>
    simp only [Option.bind_some]
    cases hi : inner.get? name with
    | none => rfl
    | some s =>
      exfalso
      -- the label is a kept one, and the name an indicator's
      have hpct : pct ∈ Quantile.labels :=
        (hb.mem_keys pct).mp (List.mem_map_of_mem (Keyed.mem_entries_of_get? hq))
      have hname : name ∈ Indicator.all.map Indicator.name :=
        ((hb.lookup pct inner hq).mem_keys name).mp
          (List.mem_map_of_mem (Keyed.mem_entries_of_get? hi))
      rcases h with h | h
      · obtain ⟨p, hp, hl⟩ := List.mem_map.mp hpct
        exact h p hp hl.symm
      · obtain ⟨k, -, hk⟩ := List.mem_map.mp hname
        exact h k hk.symm

/-! ## Values at an index -/

/-- The date at `t` is the date of candle `t + 2w`. -/
theorem getElem?_dates_ofCandles (t : Nat) (hw : 2 * w ≤ Size.max) :
    (ofCandles candles w).dates[t]? = candles[t + 2 * w]?.map Candle.date := by
  rw [(ofCandles_built candles w).dates, List.getElem?_drop, List.getElem?_map,
    Size.satMul_two hw, Nat.add_comm]

/-- An indicator's value at `t` is its raw value one trim further on. -/
theorem seriesAt_ofCandles (k : Indicator) (t : Nat) :
    ((ofCandles candles w).series? k.name).bind (·[t]?) = (k.series candles w)[k.trim w + t]? := by
  rw [series?_ofCandles, Option.bind_some, Indicator.trimmedSeries, List.getElem?_drop]

/-- A quantile's value at `t` is the quantile of the `w` raw values from `t` plus the
quantile trim. -/
theorem quantileAt_ofCandles (k : Indicator) {p : Float} (hp : p ∈ Quantile.percentiles) {t : Nat}
    (ht : t + 2 * w < candles.length) :
    ((ofCandles candles w).quantileSeries? (Quantile.label p) k.name).bind (·[t]?) =
      some (Quantile.quantile (((k.series candles w).drop (t + quantileTrim k w)).take w) p) := by
  -- the rolling window starting there ends inside the raw series, whatever its shape
  have hin : quantileTrim k w + t < (k.series candles w).length - w := by
    rw [Indicator.length_series]
    unfold quantileTrim
    cases k.shape <;> simp <;> omega
  rw [quantileSeries?_ofCandles k hp, Option.bind_some, List.getElem?_drop, List.getElem?_map,
    List.getElem?_range hin, Option.map_some, Nat.add_comm]

/-! ## Cutting the candles after index `t` -/

/-- An indicator's value at `t` is the same when the candles after `t + 2w` are cut. -/
theorem seriesAt_ofCandles_take (k : Indicator) {t : Nat} (hw : 2 * w ≤ Size.max)
    (ht : t + 2 * w < candles.length) :
    ((ofCandles (candles.take (t + 2 * w + 1)) w).series? k.name).bind (·[t]?) =
      ((ofCandles candles w).series? k.name).bind (·[t]?) := by
  have htrim : Size.satMul w 2 = 2 * w := Size.satMul_two hw
  rw [seriesAt_ofCandles, seriesAt_ofCandles, Indicator.series_take k candles w (by omega),
    List.getElem?_take]
  -- the index read lies inside the prefix of the raw series
  have hin : k.trim w + t < (if k.shape = .windowed then t + 2 * w + 1 - w else t + 2 * w + 1) := by
    unfold Indicator.trim
    cases k.shape <;> simp [htrim] <;> omega
  rw [if_pos hin]

/-- A quantile's value at `t` is the same when the candles after `t + 2w` are cut. -/
theorem quantileAt_ofCandles_take (k : Indicator) {p : Float} (hp : p ∈ Quantile.percentiles)
    {t : Nat} (ht : t + 2 * w < candles.length) :
    ((ofCandles (candles.take (t + 2 * w + 1)) w).quantileSeries? (Quantile.label p) k.name).bind
        (·[t]?) =
      ((ofCandles candles w).quantileSeries? (Quantile.label p) k.name).bind (·[t]?) := by
  have hlen : (candles.take (t + 2 * w + 1)).length = t + 2 * w + 1 := by
    rw [List.length_take]
    omega
  rw [quantileAt_ofCandles k hp (by omega), quantileAt_ofCandles k hp ht,
    Indicator.series_take k candles w (by omega), List.drop_take, List.take_take]
  -- the window read ends inside the prefix of the raw series
  congr 3
  unfold quantileTrim
  cases k.shape <;> simp <;> omega

end Table

/-- Index alignment of the indicator engine, with no look-ahead. Take candles `c`, a window
`w` whose double is a count, and an index `t` with `t + 2w` a candle of `c`. In the table
built from them the date at `t` is that of candle `t + 2w`; an instant indicator at `t` is its
value on candle `t + 2w`; the exponential average at `t` is the last value of the average of
the candles up to `t + 2w`; a windowed indicator at `t` is its value on the `w` candles
`[t + w, t + 2w)`; and for each kept percentile, the quantile of an instant or lagged
indicator at `t` is that of its raw values `[t + w, t + 2w)`, and of a windowed indicator that
of its windowed values `[t, t + w)`. Hence any candle list that agrees with `c` up to candle
`t + 2w` gives the same date and the same value of every series at `t`. -/
theorem ofCandles_noLookAhead (candles : List Candle) (w t : Nat) (hw : 2 * w ≤ Size.max)
    (ht : t + 2 * w < candles.length) :
    (ofCandles candles w).dates[t]? = some candles[t + 2 * w].date ∧
      (∀ k : Indicator, k.shape = .instant →
        ((ofCandles candles w).series? k.name).bind (·[t]?) =
          some (k.instantValue candles[t + 2 * w])) ∧
      ((ofCandles candles w).series? Indicator.ema.name).bind (·[t]?) =
        (Indicator.emaSeries (candles.take (t + 2 * w + 1)) w).getLast? ∧
      (∀ k : Indicator, k.shape = .windowed →
        ((ofCandles candles w).series? k.name).bind (·[t]?) =
          some (k.windowValue ((candles.drop (t + w)).take w))) ∧
      (∀ p ∈ Quantile.percentiles, ∀ k : Indicator, k.shape ≠ .windowed →
        ((ofCandles candles w).quantileSeries? (Quantile.label p) k.name).bind (·[t]?) =
          some (Quantile.quantile (((k.series candles w).drop (t + w)).take w) p)) ∧
      (∀ p ∈ Quantile.percentiles, ∀ k : Indicator, k.shape = .windowed →
        ((ofCandles candles w).quantileSeries? (Quantile.label p) k.name).bind (·[t]?) =
          some (Quantile.quantile (((k.series candles w).drop t).take w) p)) ∧
      ∀ candles' : List Candle, t + 2 * w < candles'.length →
        candles'.take (t + 2 * w + 1) = candles.take (t + 2 * w + 1) →
        (ofCandles candles' w).dates[t]? = (ofCandles candles w).dates[t]? ∧
          (∀ name, ((ofCandles candles' w).series? name).bind (·[t]?) =
            ((ofCandles candles w).series? name).bind (·[t]?)) ∧
          ∀ pct name, ((ofCandles candles' w).quantileSeries? pct name).bind (·[t]?) =
            ((ofCandles candles w).quantileSeries? pct name).bind (·[t]?) := by
  have htrim : Size.satMul w 2 = 2 * w := Size.satMul_two hw
  refine ⟨?_, ?_, ?_, ?_, ?_, ?_, ?_⟩
  · rw [getElem?_dates_ofCandles t hw, List.getElem?_eq_getElem ht, Option.map_some]
  · intro k hk
    rw [seriesAt_ofCandles, Indicator.series, hk, Indicator.trim, hk, htrim, List.getElem?_map,
      Nat.add_comm, List.getElem?_eq_getElem ht, Option.map_some]
  · -- the average at candle `t + 2w` is the last of the averages of the candles up to it
    have hseries : Indicator.ema.series candles w = Indicator.emaSeries candles w := rfl
    have htrimEma : Indicator.ema.trim w = 2 * w := htrim
    have hlen : t + 2 * w < (Indicator.emaSeries candles w).length := by
      rw [Indicator.length_emaSeries]
      exact ht
    rw [seriesAt_ofCandles, hseries, htrimEma, Indicator.emaSeries_take candles w (by omega),
      List.getLast?_take, if_neg (by omega), Nat.add_sub_cancel, Nat.add_comm,
      List.getElem?_eq_getElem hlen, Option.some_or]
  · intro k hk
    have hin : t + w < candles.length - w := by omega
    rw [seriesAt_ofCandles, Indicator.series, hk, Indicator.trim, hk, List.getElem?_map,
      Nat.add_comm, Indicator.getElem?_windows candles w hin, Option.map_some]
  · intro p hp k hk
    rw [quantileAt_ofCandles k hp ht, quantileTrim]
    cases hs : k.shape with
    | windowed => exact absurd hs hk
    | instant | lagged => rfl
  · intro p hp k hk
    rw [quantileAt_ofCandles k hp ht, quantileTrim, hk, Nat.add_zero]
  · -- both tables agree at `t` with the table of the common prefix
    intro candles' ht' hpre
    refine ⟨?_, fun name => ?_, fun pct name => ?_⟩
    · rw [getElem?_dates_ofCandles t hw, getElem?_dates_ofCandles t hw,
        ← List.getElem?_take_of_lt (show t + 2 * w < t + 2 * w + 1 by omega), hpre,
        List.getElem?_take_of_lt (by omega)]
    · by_cases hname : ∃ k : Indicator, name = k.name
      · obtain ⟨k, rfl⟩ := hname
        rw [← seriesAt_ofCandles_take k hw ht', hpre, seriesAt_ofCandles_take k hw ht]
      · simp only [not_exists] at hname
        rw [series?_ofCandles_eq_none hname, series?_ofCandles_eq_none hname]
    · by_cases hkey : (∃ p ∈ Quantile.percentiles, pct = Quantile.label p) ∧
          ∃ k : Indicator, name = k.name
      · obtain ⟨⟨p, hp, rfl⟩, k, rfl⟩ := hkey
        rw [← quantileAt_ofCandles_take k hp ht', hpre, quantileAt_ofCandles_take k hp ht]
      · have hnone : (∀ p ∈ Quantile.percentiles, pct ≠ Quantile.label p) ∨
            ∀ k : Indicator, name ≠ k.name := by
          by_cases hp : ∃ p ∈ Quantile.percentiles, pct = Quantile.label p
          · right
            intro k hk
            exact hkey ⟨hp, k, hk⟩
          · left
            intro p hp' hl
            exact hp ⟨p, hp', hl⟩
        rw [quantileSeries?_ofCandles_eq_none hnone, quantileSeries?_ofCandles_eq_none hnone]

/-- Five candles, a window of one and index one: the table at index one reads candle three and
the candles before it. -/
theorem ofCandles_noLookAhead_fiveCandles :
    let candles : List Candle := (List.range 5).map fun i =>
      ⟨toString i, 1.0, 2.0, 0.5, 1.5, 100.0⟩
    2 * 1 ≤ Size.max ∧ 1 + 2 * 1 < candles.length ∧
      (ofCandles candles 1).dates[1]? = some candles[1 + 2 * 1].date ∧
      (∀ k : Indicator, k.shape = .instant →
        ((ofCandles candles 1).series? k.name).bind (·[1]?) =
          some (k.instantValue candles[1 + 2 * 1])) ∧
      ((ofCandles candles 1).series? Indicator.ema.name).bind (·[1]?) =
        (Indicator.emaSeries (candles.take (1 + 2 * 1 + 1)) 1).getLast? ∧
      (∀ k : Indicator, k.shape = .windowed →
        ((ofCandles candles 1).series? k.name).bind (·[1]?) =
          some (k.windowValue ((candles.drop (1 + 1)).take 1))) ∧
      (∀ p ∈ Quantile.percentiles, ∀ k : Indicator, k.shape ≠ .windowed →
        ((ofCandles candles 1).quantileSeries? (Quantile.label p) k.name).bind (·[1]?) =
          some (Quantile.quantile (((k.series candles 1).drop (1 + 1)).take 1) p)) ∧
      (∀ p ∈ Quantile.percentiles, ∀ k : Indicator, k.shape = .windowed →
        ((ofCandles candles 1).quantileSeries? (Quantile.label p) k.name).bind (·[1]?) =
          some (Quantile.quantile (((k.series candles 1).drop 1).take 1) p)) ∧
      ∀ candles' : List Candle, 1 + 2 * 1 < candles'.length →
        candles'.take (1 + 2 * 1 + 1) = candles.take (1 + 2 * 1 + 1) →
        (ofCandles candles' 1).dates[1]? = (ofCandles candles 1).dates[1]? ∧
          (∀ name, ((ofCandles candles' 1).series? name).bind (·[1]?) =
            ((ofCandles candles 1).series? name).bind (·[1]?)) ∧
          ∀ pct name, ((ofCandles candles' 1).quantileSeries? pct name).bind (·[1]?) =
            ((ofCandles candles 1).quantileSeries? pct name).bind (·[1]?) := by
  intro candles
  have hw : 2 * 1 ≤ Size.max := by
    simp [Size.max]
  have ht : 1 + 2 * 1 < candles.length := by
    simp [candles]
  exact ⟨hw, ht, ofCandles_noLookAhead candles 1 1 hw ht⟩

end StockData
end Backtest
