import Mathlib
import Backtest.Proofs.Strategy.ParseShape
import Backtest.Proofs.Strategy.Typing
import Backtest.Proofs.Market.Alignment
/-!
# Proofs.Strategy.KeyLookup — checked names are always found in built tables

The parser checks accessor names and percentiles where they are literals. A literal name becomes
the canonical name of an indicator, the older spelling of the percent change included. A literal
percentile becomes its two-decimal label, which must be one of the kept ones. A table built from
candles binds every canonical name, and under every kept label again every canonical name. So on
a dataset of such tables, a compiled program whose accessors name their indicator and percentile
by literals never fails on an unknown indicator or percentile. It can still fail on an unknown
instrument, a time out of range, an invalid time, a division by zero or a type mismatch.

* `EvalError.IsUnknownKey`, `KeysFound` — the two failures ruled out, and results free of them;
* `Dataset.FromCandles` — every table of the dataset is built from candles;
* `Expr.LiteralKeys` — every accessor names its indicator (and percentile) by a literal;
* `eval_keysFound` — evaluation of a tree with known literal names on built tables;
* `evaluate_keysFound` — the statement for compiled programs.
-/

namespace Backtest

/-- A failed look-up of an indicator name or a percentile label. -/
def LookupError.IsUnknownKey : LookupError → Prop
  | .unknownIndicator _ _ => True
  | .unknownPercentile _ => True
  | _ => False

/-- Every table of the dataset is built from candles. -/
def Dataset.FromCandles (ds : Dataset) : Prop :=
  ∀ d ∈ ds.values, ∃ (candles : List Candle) (w : Nat), d = StockData.ofCandles candles w

/-- The table bound to a name is one built from candles. -/
theorem Dataset.FromCandles.get? {ds : Dataset} (hds : ds.FromCandles) {inst : String}
    {d : StockData} (h : ds.get? inst = some d) :
    ∃ (candles : List Candle) (w : Nat), d = StockData.ofCandles candles w :=
  hds d (Keyed.mem_values_of_get? h)

/-- A dataset listed from tables built from candles has only such tables. -/
theorem Dataset.fromCandles_ofList {kvs : List (String × StockData)}
    (h : ∀ e ∈ kvs, ∃ (candles : List Candle) (w : Nat), e.2 = StockData.ofCandles candles w) :
    Dataset.FromCandles (Keyed.ofList kvs) := by
  have hs : (Keyed.ofList kvs).Spans (kvs.map (·.1))
      fun _ d => ∃ (candles : List Candle) (w : Nat), d = StockData.ofCandles candles w :=
    Keyed.Spans.ofList h
  intro d hd
  obtain ⟨_, _, hbuilt⟩ := hs.of_mem_values hd
  exact hbuilt

namespace Strategy

/-- An evaluation failure on an unknown indicator or percentile. -/
def EvalError.IsUnknownKey : EvalError → Prop
  | .lookup e => e.IsUnknownKey
  | _ => False

/-- A result that is a value, or a failure other than an unknown indicator or percentile. -/
def KeysFound {α : Type} : Except EvalError α → Prop
  | .ok _ => True
  | .error e => ¬e.IsUnknownKey

/-- Every accessor of the tree names its indicator, and its percentile, by a text literal. -/
def Expr.LiteralKeys : Expr → Prop
  | unary _ e => e.LiteralKeys
  | binary _ l r => l.LiteralKeys ∧ r.LiteralKeys
  | indicator n i t => (∃ s, n = text s) ∧ i.LiteralKeys ∧ t.LiteralKeys
  | quantile n p i t => (∃ s, n = text s) ∧ (∃ l, p = text l) ∧ i.LiteralKeys ∧ t.LiteralKeys
  | _ => True

section KeysFound

variable {α β : Type}

theorem keysFound_ok (a : α) : KeysFound (.ok a : Except EvalError α) :=
  trivial

theorem keysFound_pure (a : α) : KeysFound (Pure.pure a : Except EvalError α) :=
  trivial

/-- Failures of the first step are passed on unchanged. -/
theorem KeysFound.bind {r : Except EvalError α} {f : α → Except EvalError β}
    (hr : KeysFound r) (hf : ∀ a, r = .ok a → KeysFound (f a)) : KeysFound (r >>= f) := by
  cases r with
  | error e => exact hr
  | ok a => exact hf a rfl

/-- The run-time type checks fail only on types. -/
theorem keysFound_asBool (v : Value) : KeysFound v.asBool := by
  cases v <;> simp [Value.asBool, KeysFound, EvalError.IsUnknownKey]

theorem keysFound_asNumber (v : Value) : KeysFound v.asNumber := by
  cases v <;> simp [Value.asNumber, KeysFound, EvalError.IsUnknownKey]

theorem keysFound_asText (v : Value) : KeysFound v.asText := by
  cases v <;> simp [Value.asText, KeysFound, EvalError.IsUnknownKey]

theorem keysFound_timeIndex (x : Float) : KeysFound (timeIndex x) := by
  unfold timeIndex
  split <;> simp [KeysFound, EvalError.IsUnknownKey]

theorem keysFound_arithmetic (op : BinaryOp) (l r : Float) : KeysFound (arithmetic op l r) := by
  cases op <;> simp only [arithmetic] <;> try trivial
  split <;> simp [KeysFound, EvalError.IsUnknownKey]

/-- A result free of the two failures is neither of them. -/
theorem KeysFound.ne_unknown {r : Except EvalError α} (h : KeysFound r) :
    (∀ name instrument, r ≠ .error (.lookup (.unknownIndicator name instrument))) ∧
      ∀ label, r ≠ .error (.lookup (.unknownPercentile label)) := by
  refine ⟨fun name instrument hr => ?_, fun label hr => ?_⟩
  · subst hr
    exact h trivial
  · subst hr
    exact h trivial

/-- A dataset look-up that fails on no unknown key. -/
theorem keysFound_liftLookup {r : Except LookupError α}
    (h : ∀ e, r = .error e → ¬e.IsUnknownKey) : KeysFound (liftLookup r) := by
  cases r with
  | ok a => trivial
  | error e => exact h e rfl

end KeysFound

/-! ## Look-ups in built tables -/

section Lookups

variable {ds : Dataset}

/-- The table of a known instrument is one built from candles. -/
theorem stock_fromCandles (hds : ds.FromCandles) {inst : String} {d : StockData}
    (h : ds.stock inst = .ok d) : ∃ (candles : List Candle) (w : Nat),
      d = StockData.ofCandles candles w := by
  unfold Dataset.stock at h
  split at h
  · rename_i d' hget
    cases h
    exact hds.get? hget
  · cases h

/-- A failed table look-up is an unknown instrument. -/
theorem stock_error {inst : String} {e : LookupError} (h : ds.stock inst = .error e) :
    e = .unknownInstrument inst := by
  unfold Dataset.stock at h
  split at h
  · cases h
  · cases h
    rfl

theorem valueAt_error {α : Type} {inst : String} {values : List α} {time : Nat}
    {e : LookupError} (h : Dataset.valueAt inst values time = .error e) :
    e = .timeOutOfRange inst time values.length := by
  unfold Dataset.valueAt at h
  split at h
  · cases h
  · cases h
    rfl

/-- Reading an indicator by its canonical name fails only on the instrument or the time. -/
theorem indicator_keysFound (hds : ds.FromCandles) (k : Indicator) (inst : String) (time : Nat) :
    KeysFound (liftLookup (ds.indicator k.name inst time)) := by
  refine keysFound_liftLookup fun e h => ?_
  unfold Dataset.indicator Dataset.indicatorSeries at h
  rcases hst : ds.stock inst with err | d
  · rw [hst] at h
    cases h
    simp [stock_error hst, LookupError.IsUnknownKey]
  rw [hst] at h
  obtain ⟨candles, w, rfl⟩ := stock_fromCandles hds hst
  simp only [bind, Except.bind, StockData.series?_ofCandles] at h
  rcases hv : Dataset.valueAt inst (k.trimmedSeries candles w) time with err | x
  · rw [hv] at h
    cases h
    simp [valueAt_error hv, LookupError.IsUnknownKey]
  · rw [hv] at h
    cases h

/-- Reading a quantile by a canonical name and a kept label fails only on the instrument or
the time. -/
theorem quantileAt_keysFound (hds : ds.FromCandles) (k : Indicator) {l : String}
    (hl : l ∈ Quantile.labels) (inst : String) (time : Nat) :
    KeysFound (liftLookup (ds.quantileAt k.name l inst time)) := by
  refine keysFound_liftLookup fun e h => ?_
  unfold Dataset.quantileAt Dataset.quantileSeries at h
  rcases hst : ds.stock inst with err | d
  · rw [hst] at h
    cases h
    simp [stock_error hst, LookupError.IsUnknownKey]
  rw [hst] at h
  obtain ⟨candles, w, rfl⟩ := stock_fromCandles hds hst
  obtain ⟨inner, hinner, hnames⟩ := StockData.quantiles_ofCandles candles w hl
  obtain ⟨s, hs, -⟩ := hnames k
  simp only [bind, Except.bind, hinner, hs] at h
  rcases hv : Dataset.valueAt inst s time with err | x
  · rw [hv] at h
    cases h
    simp [valueAt_error hv, LookupError.IsUnknownKey]
  · rw [hv] at h
    cases h

end Lookups

/-! ## Evaluation -/

section Eval

variable {ds : Dataset} {inst : String} {t : Nat}

/-- A tree whose accessors name known indicators and labels by literals evaluates, on built
tables, to a value or to a failure other than an unknown indicator or percentile. -/
theorem eval_keysFound (hds : ds.FromCandles) {e : Expr} (hknown : e.NamesKnown)
    (hlit : e.LiteralKeys) : KeysFound (eval ds inst t e) := by
  induction e with
  | number x => exact keysFound_ok _
  | bool b => exact keysFound_ok _
  | text s => exact keysFound_ok _
  | instrument => exact keysFound_ok _
  | time => exact keysFound_ok _
  | unary op x ih =>
    have hx := ih hknown hlit
    cases op
    · simp only [eval]
      exact hx.bind fun v _ => (keysFound_asBool v).bind fun _ _ => keysFound_pure _
    · simp only [eval]
      exact hx.bind fun v _ => (keysFound_asNumber v).bind fun _ _ => keysFound_pure _
  | binary op l r ihl ihr =>
    have hl := ihl hknown.1 hlit.1
    have hr := ihr hknown.2 hlit.2
    -- every operator reads its left side, maybe its right side, and looks nothing up
    cases op
    case or | and =>
      simp only [eval]
      refine hl.bind fun v _ => (keysFound_asBool v).bind fun b _ => ?_
      split
      · exact keysFound_pure _
      · exact hr.bind fun w _ => (keysFound_asBool w).bind fun _ _ => keysFound_pure _
    case eq | ne =>
      simp only [eval]
      refine hl.bind fun a _ => hr.bind fun b _ => ?_
      split
      · -- comparing values of two types is a type error
        exact id
      · exact keysFound_pure _
    all_goals
      rw [eval_numeric (by simp [BinaryOp.family])]
      exact hl.bind fun v _ => (keysFound_asNumber v).bind fun a _ =>
        hr.bind fun w _ => (keysFound_asNumber w).bind fun b _ => keysFound_arithmetic _ a b
  | indicator n i tm ihn ihi iht =>
    obtain ⟨hname, -, hi, htm⟩ := hknown
    obtain ⟨⟨s, rfl⟩, hli, hltm⟩ := hlit
    -- the literal name is the canonical name of an indicator
    obtain ⟨k, rfl⟩ := hname
    simp only [eval]
    refine (keysFound_ok _).bind fun v hv => ?_
    cases hv
    refine (keysFound_asText _).bind fun name hname => ?_
    cases hname
    refine (ihi hi hli).bind fun w _ => (keysFound_asText w).bind fun instrument _ => ?_
    refine (iht htm hltm).bind fun x _ => (keysFound_asNumber x).bind fun y _ => ?_
    refine (keysFound_timeIndex y).bind fun index _ => ?_
    exact (indicator_keysFound hds k instrument index).bind fun _ _ => keysFound_pure _
  | quantile n p i tm ihn ihp ihi iht =>
    obtain ⟨hname, hlabel, -, -, hi, htm⟩ := hknown
    obtain ⟨⟨s, rfl⟩, ⟨l, rfl⟩, hli, hltm⟩ := hlit
    -- the literal name is canonical, and the literal percentile a kept label
    obtain ⟨k, rfl⟩ := hname
    simp only [eval]
    refine (keysFound_ok _).bind fun v hv => ?_
    cases hv
    refine (keysFound_asText _).bind fun name hname => ?_
    cases hname
    refine (keysFound_ok _).bind fun v hv => ?_
    cases hv
    refine (keysFound_asText _).bind fun label hlabel' => ?_
    cases hlabel'
    refine (ihi hi hli).bind fun w _ => (keysFound_asText w).bind fun instrument _ => ?_
    refine (iht htm hltm).bind fun x _ => (keysFound_asNumber x).bind fun y _ => ?_
    refine (keysFound_timeIndex y).bind fun index _ => ?_
    exact (quantileAt_keysFound hds k hlabel instrument index).bind fun _ _ => keysFound_pure _

/-- A compiled program whose accessors name their indicator and percentile by literals never
fails, on a dataset of tables built from candles, on an unknown indicator or percentile: the
names and labels the parser accepts are exactly keys those tables hold. -/
theorem evaluate_keysFound {p : String} {e : Expr} (hp : parse p = .ok e)
    (hlit : e.LiteralKeys) (hds : ds.FromCandles) (inst : String) (t : Nat) :
    (∀ name instrument,
        evaluate ds inst t e ≠ .error (.lookup (.unknownIndicator name instrument))) ∧
      ∀ label, evaluate ds inst t e ≠ .error (.lookup (.unknownPercentile label)) := by
  obtain ⟨-, -, hknown⟩ := parse_compiled hp
  have h : KeysFound (evaluate ds inst t e) :=
    (eval_keysFound hds hknown hlit).bind fun v _ => keysFound_asBool v
  exact h.ne_unknown

/-- The older spelling of the percent change, read against a table built from no candles. -/
theorem evaluate_keysFound_legacyName :
    parse "Indicator(\"PricePercentageChangeOpenToClose\", stock, time) >= 0" =
        .ok (.binary .ge (.indicator (.text "PricePercentChangeOpenToClose") .instrument .time)
          (.number 0)) ∧
      ∀ (inst : String) (t : Nat),
        let ds : Dataset := Keyed.ofList [("X", StockData.ofCandles [] 2)]
        let e : Expr := .binary .ge
          (.indicator (.text "PricePercentChangeOpenToClose") .instrument .time) (.number 0)
        (∀ name instrument,
            evaluate ds inst t e ≠ .error (.lookup (.unknownIndicator name instrument))) ∧
          ∀ label, evaluate ds inst t e ≠ .error (.lookup (.unknownPercentile label)) := by
  have hparse : parse "Indicator(\"PricePercentageChangeOpenToClose\", stock, time) >= 0" =
      .ok (.binary .ge (.indicator (.text "PricePercentChangeOpenToClose") .instrument .time)
        (.number 0)) := by
    cbv
  have hds : Dataset.FromCandles (Keyed.ofList [("X", StockData.ofCandles [] 2)]) :=
    Dataset.fromCandles_ofList fun _ he => ⟨[], 2, by rw [List.mem_singleton.mp he]⟩
  refine ⟨hparse, fun inst t => ?_⟩
  exact evaluate_keysFound hparse ⟨⟨⟨_, rfl⟩, trivial, trivial⟩, trivial⟩ hds inst t

end Eval

end Strategy
end Backtest
