import Mathlib
import Backtest.Proofs.Trading.Policies
/-!
# Proofs.Trading.Run — what a backtest run returns

A successful run samples a range `[start, stop)` inside the series, runs its exit policy over
it and prices every order at the date and close of its index. This module follows one run:

* `uniformInclusive_le`, `sampleRange_bounds` — a drawn range lies inside the series, and a
  minibatch range stops before the last index, whatever the generator's state;
* `runBacktest_ok` — what a run that succeeds was made of;
* `runBacktest_wellPlaced` — its executions alternate from a purchase, purchases stand at set
  signals of the range, every sale lies between its purchase and the last index, and returns
  are measured without an ordering failure;
* `runBacktest_open_iff` — which runs end holding a position: exactly the market-timing runs
  on a minibatch whose last run of set signals starts inside the range. Without a minibatch the
  forced exit at the last index closes every position; a minibatch range never reaches it.
-/

namespace Backtest
namespace Trading

/-! ## Sampling the range -/

namespace Random.ChaCha

/-- A 64-bit draw fits in 64 bits. -/
theorem nextU64_lt (g : Backtest.Random.ChaCha) : g.nextU64.1 < 2 ^ 64 := by
  have hw : ∀ (h : Backtest.Random.ChaCha) i, h.word i < 2 ^ 32 := fun h i => UInt32.toNat_lt _
  -- the high word is shifted by a multiplication with the word size
  have h32 : Nat.pow 2 32 = 2 ^ 32 := rfl
  unfold Backtest.Random.ChaCha.nextU64
  rw [h32]
  split
  · have := hw g g.index
    have := hw g (g.index + 1)
    omega
  · split
    · dsimp only
      have := hw g.refill 0
      have := hw g.refill 1
      omega
    · dsimp only
      have := hw g g.index
      have := hw g.refill 0
      omega

end Random.ChaCha

/-- A draw in a zone of a positive width lies below the width. -/
theorem drawInZone_lt {width : Nat} (zone : Nat) (hw : 0 < width) (attempts : Nat)
    (g : Random.ChaCha) : (Random.drawInZone width zone attempts g).1 < width := by
  induction attempts generalizing g with
  | zero => exact hw
  | succ attempts ih =>
    unfold Random.drawInZone
    rcases hg : g.nextU64 with ⟨v, g'⟩
    have hv : v < 2 ^ 64 := by
      have := Random.ChaCha.nextU64_lt g
      rwa [hg] at this
    dsimp only
    split
    · -- the high half of a 64-bit draw times the width is below the width
      apply (Nat.div_lt_iff_lt_mul (Nat.two_pow_pos 64)).mpr
      rw [Nat.mul_comm width]
      exact Nat.mul_lt_mul_of_pos_right hv hw
    · exact ih g'

/-- A uniform draw from `0..=high` is at most `high`. -/
theorem uniformInclusive_le (high : Nat) (g : Random.ChaCha) :
    (Random.uniformInclusive 0 high g).1 ≤ high := by
  unfold Random.uniformInclusive
  simp only [Nat.sub_zero, Nat.zero_add]
  split
  · -- a width of `2^64` takes the draw as it is, and then `high` is at least `2^64 - 1`
    rename_i hwidth
    have hv := Random.ChaCha.nextU64_lt g
    have h64 : Nat.pow 2 64 = 2 ^ 64 := rfl
    have : Nat.pow 2 64 ≤ high + 1 := by
      rcases Nat.lt_or_ge (high + 1) (Nat.pow 2 64) with hlt | hge
      · rw [Nat.mod_eq_of_lt hlt] at hwidth
        omega
      · exact hge
    omega
  · -- otherwise the draw lies below the width, which is at most `high + 1`
    rename_i hwidth
    dsimp only
    apply Nat.le_of_lt_succ
    calc _ ≤ (Random.drawInZone _ _ Random.maxAttempts g).1 := Nat.mod_le _ _
      _ < (high + 1) % 2 ^ 64 := drawInZone_lt _ (Nat.pos_of_ne_zero hwidth) _ g
      _ ≤ high + 1 := Nat.mod_le _ _

/-- A sampled range lies inside the series, and it stops before the series' end exactly when
a minibatch is drawn. -/
theorem sampleRange_bounds {len : Nat} {minibatch : Option Nat} {g g' : Random.ChaCha}
    {start stop : Nat} (h : sampleRange len minibatch g = .ok ((start, stop), g')) :
    start ≤ stop ∧ stop ≤ len ∧ (minibatch.isSome ↔ stop < len) := by
  unfold sampleRange at h
  cases minibatch with
  | none =>
    simp only [Except.ok.injEq, Prod.mk.injEq] at h
    obtain ⟨⟨rfl, rfl⟩, -⟩ := h
    simp
  | some size =>
    dsimp only at h
    split at h
    · cases h
    · -- the start is drawn from `0..=len - size - 1`, so the range ends by `len - 1`
      rename_i hsize
      simp only [Except.ok.injEq, Prod.mk.injEq] at h
      obtain ⟨⟨rfl, rfl⟩, -⟩ := h
      have := uniformInclusive_le (len - size - 1) g
      simp only [Option.isSome_some, true_iff]
      omega

/-! ## One run -/

section Run

variable {signals : List Bool} {name : String} {data : StockData} {cfg : BacktestConfig}
  {g g' : Random.ChaCha} {es : List Execution}

/-- A run that succeeds either had no signals and made no orders, or found closing prices of
the series' length, drew a range and priced the orders its policy emits over it. -/
theorem runBacktest_ok (h : runBacktest signals name data cfg g = .ok (es, g')) :
    (signals = [] ∧ es = [] ∧ g' = g) ∨
      ∃ closes start stop, signals.length = data.length ∧ data.series? closeName = some closes ∧
        closes.length = signals.length ∧
        sampleRange signals.length cfg.minibatch g = .ok ((start, stop), g') ∧
        es = (policyOrders cfg.policy cfg.transactionCost signals closes start stop).map
          (Execution.ofOrder data.dates closes) := by
  unfold runBacktest at h
  simp only [bind, Except.bind, pure, Except.pure] at h
  split at h
  · cases h
  · split at h
    · left
      rename_i hempty
      simp only [Except.ok.injEq, Prod.mk.injEq] at h
      exact ⟨List.isEmpty_iff.mp hempty, h.1.symm, h.2.symm⟩
    · right
      -- past the length checks, the only way to succeed is through the drawn range
      split at h
      · cases h
      · rename_i hlen
        split at h
        · rename_i closes hcloses
          split at h
          · rename_i hclen
            split at h
            · cases h
            · rename_i r hr
              simp only [Except.ok.injEq, Prod.mk.injEq] at h
              exact ⟨closes, r.1.1, r.1.2, by simpa using hlen, hcloses, hclen,
                by rw [hr, ← h.2], h.1.symm⟩
          · cases h
        · cases h

/-- Every policy emits a schedule from the range start whose purchases are set signals of
the range, before the last index under market timing, for a series whose closes have one value
per signal and that fits in a 64-bit count. -/
theorem policyOrders_schedule {closes : List Float} {stop : Nat} (policy : ExitPolicy)
    (cost : Float) (start : Nat) (hclen : closes.length = signals.length) (hstop : stop ≤ signals.length)
    (hfit : signals.length ≤ Size.max) :
    Schedule (fun b => b < stop ∧ signals[b]? = some true ∧
        (policy = .marketTiming → b + 1 < signals.length))
      (signals.length - 1) start (policyOrders policy cost signals closes start stop) := by
  cases policy with
  | stopLossProfitTake pt sl =>
    show Schedule _ _ _ (tripOrders (stopLossTrips signals closes stop pt sl cost start))
    rw [← hclen]
    exact (stopLossTrips_schedule (by omega) start).weaken fun b hb => ⟨hb.1, hb.2, nofun⟩
  | timeStop p =>
    show Schedule _ _ _ (tripOrders (timeStopTrips signals (closes.length - 1) stop p start))
    rw [← hclen]
    exact (timeStopTrips_schedule (by omega) (by omega) start).weaken
      fun b hb => ⟨hb.1, hb.2, nofun⟩
  | marketTiming =>
    exact (timingOrders_schedule hstop).weaken fun b hb => ⟨hb.1, hb.2.1, fun _ => hb.2.2⟩

/-! ## Where the executions stand -/

@[simp] theorem Execution.ofOrder_side (dates : List String) (closes : List Float)
    (o : Side × Nat) : (Execution.ofOrder dates closes o).side = o.1 := rfl

@[simp] theorem Execution.ofOrder_timeIndex (dates : List String) (closes : List Float)
    (o : Side × Nat) : (Execution.ofOrder dates closes o).timeIndex = o.2 := rfl

/-- What the executions of a backtest over the range `[start, stop)` of a series satisfy:
purchases and sales alternate from a purchase; purchases stand at set signals inside the range,
at strictly increasing indices, and before the last index under market timing; every sale lies
between its purchase and the last index and no later than the next purchase; every execution
carries the date and the close of its own index. -/
structure WellPlaced (signals : List Bool) (dates : List String) (closes : List Float)
    (policy : ExitPolicy) (start stop : Nat) (es : List Execution) : Prop where
  alternate : ∀ k (hk : k < es.length), es[k].side = if k % 2 = 0 then .buy else .sell
  buyInRange : ∀ k (hk : k < es.length), k % 2 = 0 →
    start ≤ es[k].timeIndex ∧ es[k].timeIndex < stop ∧ signals[es[k].timeIndex]? = some true
  buyBeforeLast : policy = .marketTiming → ∀ k (hk : k < es.length), k % 2 = 0 →
    es[k].timeIndex + 1 < signals.length
  buysIncrease : ∀ k k' (hkk : k < k') (hk' : k' < es.length), k % 2 = 0 → k' % 2 = 0 →
    es[k].timeIndex < es[k'].timeIndex
  sellAfterBuy : ∀ k (hk : k < es.length), k % 2 = 1 →
    es[k - 1].timeIndex ≤ es[k].timeIndex ∧ es[k].timeIndex < signals.length
  sellBeforeNext : ∀ k (hk : k + 1 < es.length), k % 2 = 1 →
    es[k].timeIndex ≤ es[k + 1].timeIndex
  priced : ∀ e ∈ es, dates[e.timeIndex]? = some e.time ∧ closes[e.timeIndex]? = some e.price

/-- A schedule of the policies' shape, priced at the dates and closes of the series, is well
placed. -/
theorem wellPlaced_of_schedule {dates : List String} {closes : List Float} {policy : ExitPolicy}
    {start stop : Nat} {orders : List (Side × Nat)}
    (h : Schedule (fun b => b < stop ∧ signals[b]? = some true ∧
        (policy = .marketTiming → b + 1 < signals.length)) (signals.length - 1) start orders)
    (hstop : stop ≤ signals.length) (hdates : dates.length = signals.length)
    (hclen : closes.length = signals.length) :
    WellPlaced signals dates closes policy start stop
      (orders.map (Execution.ofOrder dates closes)) := by
  -- a schedule with an order has a purchase before `stop`, so the series is not empty
  have hpos : orders ≠ [] → 0 < signals.length := by
    intro hne
    have h0 : 0 < orders.length := List.length_pos_iff.mpr hne
    have := (h.buy_getElem 0 h0 rfl).2.1
    omega
  have hlt : ∀ o ∈ orders, o.2 < signals.length := by
    intro o ho
    have hle := h.le_last_of_mem (fun b hb => by omega) ho
    have := hpos (List.ne_nil_of_mem ho)
    omega
  refine ⟨?_, ?_, ?_, ?_, ?_, ?_, ?_⟩
  · intro k hk
    simpa using h.side_getElem k (by simpa using hk)
  · intro k hk heven
    have := h.buy_getElem k (by simpa using hk) heven
    simpa using ⟨this.1, this.2.1, this.2.2.1⟩
  · intro hp k hk heven
    simpa using (h.buy_getElem k (by simpa using hk) heven).2.2.2 hp
  · intro k k' hkk hk' heven heven'
    simpa using h.buys_increase k k' hkk (by simpa using hk') heven heven'
  · intro k hk hodd
    have hk' : k < orders.length := by simpa using hk
    have := (h.sell_getElem k hk' hodd).1
    refine ⟨by simpa using this, ?_⟩
    simpa using hlt _ (List.getElem_mem hk')
  · intro k hk hodd
    have hk' : k + 1 < orders.length := by simpa using hk
    simpa using (h.sell_getElem k (by omega) hodd).2.2 hk'
  · intro e he
    obtain ⟨o, ho, rfl⟩ := List.mem_map.mp he
    have hi := hlt o ho
    simp only [Execution.ofOrder, List.getD_eq_getElem?_getD]
    rw [List.getElem?_eq_getElem (by omega), List.getElem?_eq_getElem (by omega)]
    simp

/-- Every successful run places its executions well. Without signals it makes none;
otherwise the series has dates and closes of the signals' length, the drawn range lies inside
it, the executions are `WellPlaced` over that range, and their returns are measured without an
ordering failure for every kind and cost. The series is taken to fit in a 64-bit count, as
every sequence the program holds does. -/
theorem runBacktest_wellPlaced (hfit : signals.length ≤ Size.max)
    (h : runBacktest signals name data cfg g = .ok (es, g')) :
    (signals = [] ∧ es = []) ∨
      ∃ closes start stop, data.dates.length = signals.length ∧
        data.series? closeName = some closes ∧ closes.length = signals.length ∧
        sampleRange signals.length cfg.minibatch g = .ok ((start, stop), g') ∧
        start ≤ stop ∧ stop ≤ signals.length ∧
        WellPlaced signals data.dates closes cfg.policy start stop es ∧
        ∀ kind cost, ∃ rs, calculateReturns es kind cost = .ok rs := by
  rcases runBacktest_ok h with ⟨hs, he, -⟩ | ⟨closes, start, stop, hlen, hcloses, hclen, hrange, rfl⟩
  · exact .inl ⟨hs, he⟩
  · right
    obtain ⟨hss, hstop, -⟩ := sampleRange_bounds hrange
    have hdates : data.dates.length = signals.length := by simpa [StockData.length] using hlen.symm
    have hsched := policyOrders_schedule cfg.policy cfg.transactionCost start hclen hstop hfit
    refine ⟨closes, start, stop, hdates, hcloses, hclen, hrange, hss, hstop,
      wellPlaced_of_schedule hsched hstop hdates hclen, fun kind cost => ?_⟩
    obtain ⟨rs, hrs, -⟩ := hsched.returnsFrom_ok (Execution.ofOrder data.dates closes)
      (fun _ => rfl) kind cost 0
    exact ⟨rs, hrs⟩

/-! ## Open positions -/

/-- Executions that end without an open purchase. -/
def EndsClosed (es : List Execution) : Prop :=
  ∀ e, es.getLast? = some e → e.side = .sell

theorem endsClosed_map_ofOrder (dates : List String) (closes : List Float)
    (orders : List (Side × Nat)) :
    EndsClosed (orders.map (Execution.ofOrder dates closes)) ↔ Closed orders := by
  simp only [EndsClosed, Closed, List.getLast?_map]
  constructor
  · intro h o ho
    have hsell := h (Execution.ofOrder dates closes o) (by rw [ho]; rfl)
    rwa [Execution.ofOrder_side] at hsell
  · intro h e he
    obtain ⟨o, ho, rfl⟩ := Option.map_eq_some_iff.mp he
    rw [Execution.ofOrder_side]
    exact h o ho

/-- The policies other than market timing emit whole round trips. -/
theorem policyOrders_eq_tripOrders {policy : ExitPolicy} (hp : policy ≠ .marketTiming)
    (cost : Float) (signals : List Bool) (closes : List Float) (start stop : Nat) :
    ∃ trips, policyOrders policy cost signals closes start stop = tripOrders trips := by
  cases policy with
  | stopLossProfitTake pt sl => exact ⟨_, rfl⟩
  | timeStop p => exact ⟨_, rfl⟩
  | marketTiming => exact absurd rfl hp

/-- Which runs end holding a position. A run's executions have an even count exactly when
they end closed, and they yield one return per round trip. They end holding a position exactly
when the run is a market-timing run on a minibatch, with a set signal run that starts inside
the drawn range and lasts to its end: such a range stops before the last index, where the
forced exit would have closed the position. -/
theorem runBacktest_open_iff (h : runBacktest signals name data cfg g = .ok (es, g')) :
    (es.length % 2 = 0 ↔ EndsClosed es) ∧
    (∀ kind cost, ∃ rs, calculateReturns es kind cost = .ok rs ∧ rs.length = es.length / 2) ∧
    (¬EndsClosed es ↔ cfg.policy = .marketTiming ∧ cfg.minibatch.isSome = true ∧
      ∃ start stop, sampleRange signals.length cfg.minibatch g = .ok ((start, stop), g') ∧
        ∃ b, start ≤ b ∧ b < stop ∧ (b = 0 ∨ signals[b - 1]? = some false) ∧
          ∀ j, b ≤ j → j < stop → signals[j]? = some true) := by
  rcases runBacktest_ok h with ⟨rfl, rfl, rfl⟩ | ⟨closes, start, stop, -, -, hclen, hrange, rfl⟩
  · -- no signals: no executions, and no range holds an index
    refine ⟨by simp [EndsClosed], fun _ _ => ⟨[], rfl, rfl⟩, ?_⟩
    refine iff_of_false (by simp [EndsClosed]) ?_
    rintro ⟨-, -, start, stop, hr, b, -, hb, -⟩
    have := (sampleRange_bounds hr).2.1
    simp only [List.length_nil] at this
    omega
  · obtain ⟨hss, hstop, hmb⟩ := sampleRange_bounds hrange
    -- the drawn range is the only one the run can have drawn
    have hdrawn : ∀ P : Nat → Nat → Prop, (∃ start' stop',
        sampleRange signals.length cfg.minibatch g = .ok ((start', stop'), g') ∧
          P start' stop') ↔ P start stop := by
      intro P
      constructor
      · rintro ⟨start', stop', hr, hP⟩
        rw [hrange] at hr
        simp only [Except.ok.injEq, Prod.mk.injEq] at hr
        obtain ⟨⟨rfl, rfl⟩, -⟩ := hr
        exact hP
      · exact fun hP => ⟨start, stop, hrange, hP⟩
    rw [endsClosed_map_ofOrder, List.length_map, hdrawn]
    by_cases hp : cfg.policy = .marketTiming
    · -- market timing: a schedule, open exactly as `timingOrders_open_iff` says
      have hsched : Schedule _ _ start _ := timingOrders_schedule hstop
      have heq : policyOrders cfg.policy cfg.transactionCost signals closes start stop =
          timingOrders (timingStates signals) start stop := by
        rw [hp]
        rfl
      rw [heq, timingOrders_open_iff hss hstop, hsched.closed_iff_even, ← hmb]
      refine ⟨Iff.rfl, fun kind cost => ?_, by simp [hp]⟩
      exact hsched.returnsFrom_ok (Execution.ofOrder data.dates closes) (fun _ => rfl)
        kind cost 0
    · -- the other policies emit whole round trips, so they always end closed
      obtain ⟨trips, htrips⟩ := policyOrders_eq_tripOrders hp cfg.transactionCost signals closes
        start stop
      rw [htrips]
      refine ⟨iff_of_true (by simp [length_tripOrders]) (tripOrders_closed trips),
        fun kind cost => ?_, iff_of_false (fun hopen => hopen (tripOrders_closed trips)) (by simp [hp])⟩
      obtain ⟨rs, hrs, hlen⟩ := tripOrders_returns trips (Execution.ofOrder data.dates closes)
        (fun _ => rfl) kind cost 0
      exact ⟨rs, hrs, by simp [length_tripOrders, hlen]⟩

end Run

/-- Three dates with rising closes. -/
def risingSeries : StockData :=
  ⟨["a", "b", "c"], Keyed.empty.insert "ClosePrice" [1.0, 2.0, 3.0], Keyed.empty⟩

/-- A generator with nothing buffered. -/
def freshGenerator : Random.ChaCha := ⟨[], 0, [], 64⟩

/-- A market-timing run over three dates without a minibatch buys at the first signal and
sells where the signals fall. -/
theorem runBacktest_wellPlaced_marketTiming :
    [true, false, true].length ≤ Size.max ∧
    runBacktest [true, false, true] "X" risingSeries ⟨.marketTiming, 0.0, none, none⟩
        freshGenerator =
      .ok ([⟨.buy, "a", 0, 1.0⟩, ⟨.sell, "b", 1, 2.0⟩], freshGenerator) ∧
    (([true, false, true] = [] ∧ [(⟨.buy, "a", 0, 1.0⟩ : Execution), ⟨.sell, "b", 1, 2.0⟩] = []) ∨
      ∃ closes start stop, risingSeries.dates.length = [true, false, true].length ∧
        risingSeries.series? closeName = some closes ∧ closes.length = [true, false, true].length ∧
        sampleRange [true, false, true].length none freshGenerator =
          .ok ((start, stop), freshGenerator) ∧
        start ≤ stop ∧ stop ≤ [true, false, true].length ∧
        WellPlaced [true, false, true] risingSeries.dates closes .marketTiming start stop
          [⟨.buy, "a", 0, 1.0⟩, ⟨.sell, "b", 1, 2.0⟩] ∧
        ∀ kind cost, ∃ rs, calculateReturns [⟨.buy, "a", 0, 1.0⟩, ⟨.sell, "b", 1, 2.0⟩] kind cost =
          .ok rs) :=
  ⟨by decide, by rfl, @runBacktest_wellPlaced [true, false, true] "X" risingSeries
    ⟨.marketTiming, 0.0, none, none⟩ freshGenerator freshGenerator
    [⟨.buy, "a", 0, 1.0⟩, ⟨.sell, "b", 1, 2.0⟩] (by decide) (by rfl)⟩

/-- The same run ends closed, with its one round trip measured. -/
theorem runBacktest_open_iff_marketTiming :
    runBacktest [true, false, true] "X" risingSeries ⟨.marketTiming, 0.0, none, none⟩
        freshGenerator =
      .ok ([⟨.buy, "a", 0, 1.0⟩, ⟨.sell, "b", 1, 2.0⟩], freshGenerator) ∧
    ([(⟨.buy, "a", 0, 1.0⟩ : Execution), ⟨.sell, "b", 1, 2.0⟩].length % 2 = 0 ↔
      EndsClosed [⟨.buy, "a", 0, 1.0⟩, ⟨.sell, "b", 1, 2.0⟩]) ∧
    (∀ kind cost, ∃ rs, calculateReturns [⟨.buy, "a", 0, 1.0⟩, ⟨.sell, "b", 1, 2.0⟩] kind cost =
      .ok rs ∧ rs.length = [(⟨.buy, "a", 0, 1.0⟩ : Execution), ⟨.sell, "b", 1, 2.0⟩].length / 2) ∧
    (¬EndsClosed [⟨.buy, "a", 0, 1.0⟩, ⟨.sell, "b", 1, 2.0⟩] ↔
      ExitPolicy.marketTiming = .marketTiming ∧ (none : Option Nat).isSome = true ∧
      ∃ start stop, sampleRange [true, false, true].length none freshGenerator =
          .ok ((start, stop), freshGenerator) ∧
        ∃ b, start ≤ b ∧ b < stop ∧ (b = 0 ∨ [true, false, true][b - 1]? = some false) ∧
          ∀ j, b ≤ j → j < stop → [true, false, true][j]? = some true) :=
  ⟨by rfl, @runBacktest_open_iff [true, false, true] "X" risingSeries
    ⟨.marketTiming, 0.0, none, none⟩ freshGenerator freshGenerator
    [⟨.buy, "a", 0, 1.0⟩, ⟨.sell, "b", 1, 2.0⟩] (by rfl)⟩

/-- A market-timing run on a minibatch of one date, drawn at the start of a run of set
signals, buys and never sells: the forced exit at the last index lies outside the drawn
range. -/
theorem runBacktest_minibatch_ends_open :
    ∃ es g', runBacktest [true, true, true] "X" risingSeries ⟨.marketTiming, 0.0, some 1, none⟩
        ⟨[], 0, [0, 0], 0⟩ = .ok (es, g') ∧ ¬EndsClosed es ∧ es.length % 2 = 1 := by
  have hsides : (runBacktest [true, true, true] "X" risingSeries
      ⟨.marketTiming, 0.0, some 1, none⟩ ⟨[], 0, [0, 0], 0⟩).map (·.1.map (·.side)) =
      .ok [.buy] := by rfl
  cases hrun : runBacktest [true, true, true] "X" risingSeries
      ⟨.marketTiming, 0.0, some 1, none⟩ ⟨[], 0, [0, 0], 0⟩ with
  | error e =>
    rw [hrun] at hsides
    cases hsides
  | ok r =>
    obtain ⟨es, g'⟩ := r
    rw [hrun] at hsides
    -- the run made exactly one execution, a purchase
    have hmap : es.map (·.side) = [.buy] := by
      simpa [Except.map] using hsides
    obtain ⟨e, rfl, hbuy⟩ := List.map_eq_singleton_iff.mp hmap
    refine ⟨[e], g', rfl, fun hclosed => ?_, rfl⟩
    have hsell := hclosed e rfl
    rw [hbuy] at hsell
    cases hsell
end Trading
end Backtest
