import Mathlib
import Backtest.Proofs.Config.Reading
/-!
# Backtest settings from command-line flags

The flags of a backtest are written into an empty configuration and the settings are read back
from it (`Ini.withBacktestFlags`, then `Ini.backtestSettings`). This module shows what comes
out: the settings the flags ask for, with the defaults for absent flags
(`BacktestFlags.intended`), exactly when those settings are valid and each flagged
profit-take, stop-loss and time period is in its own range. Counts are bounded by the signed
64-bit range, as the checks read them as signed numbers: a larger time period, which the
settings themselves would accept, is refused.

Whatever the configuration, settings that are built pass `BacktestConfig.validate`
(`validate_of_backtestSettings`): the checks of the configuration are at least as strict.
-/

namespace Backtest

open Decimal

/-! ## Chains of reads -/

theorem bind_eq_ok_iff {ε α β : Type} {x : Except ε α} {f : α → Except ε β} {b : β} :
    x >>= f = .ok b ↔ ∃ a, x = .ok a ∧ f a = .ok b := by
  cases x <;> simp [bind, Except.bind]

theorem throw_ne_ok {ε α : Type} (e : ε) (b : α) : (throw e : Except ε α) ≠ .ok b := by
  simp [throw, throwThe, MonadExceptOf.throw]

/-- A value with a default meets a condition the default meets exactly when the value, if
any, does. -/
theorem getD_iff_forall_mem {α : Type} {P : α → Prop} {d : α} (hd : P d) (o : Option α) :
    P (o.getD d) ↔ ∀ x ∈ o, P x := by
  cases o <;> simp [hd]

/-! ## The checks -/

namespace Trading

/-- The range each exit policy's parameters must lie in. -/
def ExitPolicy.InRange : ExitPolicy → Prop
  | .stopLossProfitTake pt sl => 0.0 < pt ∧ sl < 0.0
  | .timeStop p => p ≠ 0
  | .marketTiming => True

/-- Valid settings: a cost in `[0, 1)`, policy parameters in range and no empty minibatch. -/
theorem validate_eq_ok_iff (cfg : BacktestConfig) :
    cfg.validate = .ok () ↔
      (0.0 ≤ cfg.transactionCost ∧ cfg.transactionCost < 1.0) ∧ cfg.policy.InRange ∧
        cfg.minibatch ≠ some 0 := by
  obtain ⟨policy, c, mb, seed⟩ := cfg
  unfold BacktestConfig.validate
  -- each check throws or passes on to the next; the policy decides which checks there are
  cases policy <;>
    simp only [bind_eq_ok_iff, ite_eq_iff, throw_ne_ok, false_and, exists_false, and_false,
      or_false, Bool.and_eq_true, decide_eq_true_eq, ge_iff_le, Bool.not_eq_true,
      isNaN_or_le_zero_eq_false, isNaN_or_ge_zero_eq_false, ExitPolicy.InRange, pure,
      Except.pure, false_or, ne_eq, and_assoc, and_true, true_and, iff_self]

end Trading

namespace Config

open Trading

namespace Ini

/-- The checks of the backtest part pass exactly when every key reads and each value is in its
range: the cost in `[0, 1)`, a positive profit-take, a negative stop-loss (doubles compared as
IEEE does, so NaN fails), a time period and a minibatch of at least one. -/
theorem validateBacktest_eq_ok_iff (ini : Ini) :
    ini.validateBacktest = .ok () ↔
      ini.validateName "execution" "execution type" ExecutionKind.ofName = .ok () ∧
      (∃ cost, ini.real "backtest" "transaction_cost" = .ok cost ∧
        0.0 ≤ cost.getD defaultTransactionCost ∧ cost.getD defaultTransactionCost < 1.0) ∧
      (∃ pt, ini.real "backtest" "profit_take" = .ok pt ∧ 0.0 < pt.getD defaultProfitTake) ∧
      (∃ sl, ini.real "backtest" "stop_loss" = .ok sl ∧ sl.getD defaultStopLoss < 0.0) ∧
      (∃ p, ini.int64 "backtest" "time_period" = .ok p ∧ 1 ≤ p.getD (defaultTimePeriod : Int)) ∧
      (∃ k, ini.int64 "backtest" "minibatch_size" = .ok k ∧ ∀ n ∈ k, 1 ≤ n) ∧
      (∃ seed, ini.size "backtest" "seed" = .ok seed) ∧
      ini.validateName "return_type" "return type" ReturnKind.ofName = .ok () := by
  unfold validateBacktest
  simp only [bind_eq_ok_iff, ite_eq_iff, throw_ne_ok, false_and, exists_false, and_false,
    or_false, false_or, Bool.and_eq_true, decide_eq_true_eq, Bool.not_eq_true,
    isNaN_or_le_zero_eq_false, isNaN_or_ge_zero_eq_false, not_lt]
  constructor
  · rintro ⟨u, hexec, cost, hcost, hc, pt, hpt, hp, sl, hsl, hs, p, hper, hp1, k, hk, hrest⟩
    -- the minibatch is checked only when given; the seed and return type are read either way
    have hk' : (∀ n ∈ k, 1 ≤ n) ∧ (∃ seed, ini.size "backtest" "seed" = .ok seed) ∧
        ini.validateName "return_type" "return type" ReturnKind.ofName = .ok () := by
      cases k with
      | none =>
        simp only [bind_eq_ok_iff] at hrest
        obtain ⟨seed, hseed, hret⟩ := hrest
        exact ⟨by simp, ⟨seed, hseed⟩, hret⟩
      | some n =>
        simp only [ite_eq_iff, bind_eq_ok_iff, throw_ne_ok, false_and, exists_false, and_false,
          false_or, not_lt] at hrest
        obtain ⟨hn, seed, hseed, hret⟩ := hrest
        exact ⟨by simpa using hn, ⟨seed, hseed⟩, hret⟩
    obtain ⟨hk1, hseed, hret⟩ := hk'
    cases u
    exact ⟨hexec, ⟨cost, hcost, hc⟩, ⟨pt, hpt, hp⟩, ⟨sl, hsl, hs⟩, ⟨p, hper, hp1⟩,
      ⟨k, hk, hk1⟩, hseed, hret⟩
  · rintro ⟨hexec, ⟨cost, hcost, hc⟩, ⟨pt, hpt, hp⟩, ⟨sl, hsl, hs⟩, ⟨p, hper, hp1⟩,
      ⟨k, hk, hk1⟩, ⟨seed, hseed⟩, hret⟩
    refine ⟨(), hexec, cost, hcost, hc, pt, hpt, hp, sl, hsl, hs, p, hper, hp1, k, hk, ?_⟩
    cases k with
    | none =>
      simp only [bind_eq_ok_iff]
      exact ⟨seed, hseed, hret⟩
    | some n =>
      simp only [ite_eq_iff, bind_eq_ok_iff, throw_ne_ok, false_and, exists_false, and_false,
        false_or, not_lt]
      exact ⟨hk1 n rfl, seed, hseed, hret⟩

/-- A count both readers accept, the signed one with a positive value when given, is given to
both or to neither, with one value. -/
theorem size_eq_of_int64 {ini : Ini} {part key : String} {k : Option Int} {w : Option Nat}
    (hk : ini.int64 part key = .ok k) (hw : ini.size part key = .ok w) (hpos : ∀ n ∈ k, 0 < n) :
    w.map (fun m : Nat => (m : Int)) = k := by
  unfold int64 size typed at *
  dsimp only at hk hw
  by_cases hhas : ini.hasValue part key = true
  · -- the key holds a value: both readers read its trimmed text
    rw [if_pos hhas] at hk hw
    split at hk
    · rename_i v hv
      split at hw
      · rename_i m hm
        simp only [Except.ok.injEq] at hk hw
        subst hk hw
        simp only [Option.map_some, Option.some.injEq]
        exact readNat_eq_readInt hm hv (hpos v rfl)
      · cases hw
    · cases hk
  · rw [if_neg hhas] at hk hw
    simp only [Except.ok.injEq] at hk hw
    subst hk hw
    rfl

end Ini

/-- After `validateBacktest`, the settings are valid: the cost, profit-take and stop-loss are
the values just checked, and the time period and minibatch, read unsigned, equal the signed
values checked to be at least one. -/
theorem validate_of_backtestSettings {ini : Ini} {s : BacktestSettings}
    (h : ini.backtestSettings = .ok s) : s.config.validate = .ok () := by
  unfold Ini.backtestSettings at h
  simp only [bind_eq_ok_iff, pure, Except.pure, Except.ok.injEq] at h
  obtain ⟨u, hv, kind, -, pol, hpol, cost, hcost, mb, hmb, seed, -, rk, -, rfl⟩ := h
  cases u
  obtain ⟨-, ⟨cost', hcost', hc⟩, ⟨pt, hpt, hpt0⟩, ⟨sl, hsl, hsl0⟩, ⟨p, hp, hp1⟩,
    ⟨k, hk, hk1⟩, -, -⟩ := (Ini.validateBacktest_eq_ok_iff ini).mp hv
  rw [hcost, Except.ok.injEq] at hcost'
  subst hcost'
  rw [validate_eq_ok_iff]
  refine ⟨hc, ?_, ?_⟩
  · -- the policy's parameters are the values the checks read
    cases kind with
    | stopLossProfitTake =>
      simp only [Ini.policy, bind_eq_ok_iff, pure, Except.pure, Except.ok.injEq] at hpol
      obtain ⟨pt', hpt', sl', hsl', rfl⟩ := hpol
      rw [hpt, Except.ok.injEq] at hpt'
      rw [hsl, Except.ok.injEq] at hsl'
      subst hpt' hsl'
      exact ⟨hpt0, hsl0⟩
    | timeStop =>
      simp only [Ini.policy, bind_eq_ok_iff, pure, Except.pure, Except.ok.injEq] at hpol
      obtain ⟨w, hw, rfl⟩ := hpol
      have hpos : ∀ n ∈ p, 0 < n := by
        intro n hn
        rw [Option.mem_def] at hn
        rw [hn, Option.getD_some] at hp1
        omega
      have hsame := Ini.size_eq_of_int64 hp hw hpos
      show w.getD defaultTimePeriod ≠ 0
      cases w with
      | none => decide
      | some m =>
        rw [← hsame] at hp1
        simp only [Option.map_some, Option.getD_some] at hp1
        simp only [Option.getD_some]
        omega
    | marketTiming =>
      simp only [Ini.policy, pure, Except.pure, Except.ok.injEq] at hpol
      subst hpol
      trivial
  · -- the minibatch, read unsigned, is the signed value checked to be at least one
    have hsame := Ini.size_eq_of_int64 hk hmb (fun n hn => hk1 n hn)
    show mb ≠ some 0
    rintro rfl
    rw [← hsame] at hk1
    have := hk1 0 rfl
    omega

/-! ## Settings from flags -/

/-- The settings the flags ask for: the policy of the execution kind with its flagged
parameters, the flagged cost, minibatch and seed, and the default for each absent flag. -/
def BacktestFlags.intended (a : BacktestFlags) (kind : ExecutionKind) : BacktestConfig where
  policy :=
    match kind with
    | .stopLossProfitTake =>
      .stopLossProfitTake (a.profitTake.getD defaultProfitTake) (a.stopLoss.getD defaultStopLoss)
    | .timeStop => .timeStop (a.timePeriod.getD defaultTimePeriod)
    | .marketTiming => .marketTiming
  transactionCost := a.transactionCost.getD defaultTransactionCost
  minibatch := a.minibatch
  seed := a.seed

theorem defaultProfitTake_pos : 0.0 < defaultProfitTake := by decide

theorem defaultStopLoss_neg : defaultStopLoss < 0.0 := by decide

theorem int64Max_le_max : int64Max ≤ Size.max := by decide

/-- A name key that holds a readable name, or none, passes its check. -/
theorem Ini.validateName_eq_ok {α : Type} {ini : Ini} {key what d : String}
    {ofName : String → Except Error α} {name : Option String} {v : α}
    (hget : ini.get "backtest" key = name) (h : ofName (name.getD d) = .ok v) :
    ini.validateName key what ofName = .ok () := by
  unfold validateName
  rw [hget]
  cases name with
  | none => rfl
  | some n =>
    rw [Option.getD_some] at h
    simp only [h]

section Flags
variable (a : BacktestFlags) {kind : ExecutionKind} {returns : ReturnKind}

/-- The intended policy is in range when each flagged parameter is: the defaults are. -/
theorem intended_inRange (kind : ExecutionKind) (hpt : ∀ pt ∈ a.profitTake, 0.0 < pt)
    (hsl : ∀ sl ∈ a.stopLoss, sl < 0.0) (hper : ∀ p ∈ a.timePeriod, 1 ≤ p) :
    (a.intended kind).policy.InRange := by
  cases kind with
  | stopLossProfitTake =>
    exact ⟨(getD_iff_forall_mem defaultProfitTake_pos _).mpr hpt,
      (getD_iff_forall_mem (P := fun x : Float => x < 0.0) defaultStopLoss_neg _).mpr hsl⟩
  | timeStop =>
    show a.timePeriod.getD defaultTimePeriod ≠ 0
    have := (getD_iff_forall_mem (P := fun p : Nat => 1 ≤ p) (d := defaultTimePeriod) (by decide) _).mpr
      hper
    omega
  | marketTiming => trivial

/-- What the configuration the flags write reads as: each key the text of its flag, and each
typed value the flag itself. -/
structure FlagReads (a : BacktestFlags) : Prop where
  execution : (Ini.empty.withBacktestFlags a).get "backtest" "execution" = a.execution
  returnType : (Ini.empty.withBacktestFlags a).get "backtest" "return_type" = a.returnType
  cost : (Ini.empty.withBacktestFlags a).real "backtest" "transaction_cost" = .ok a.transactionCost
  profitTake : (Ini.empty.withBacktestFlags a).real "backtest" "profit_take" = .ok a.profitTake
  stopLoss : (Ini.empty.withBacktestFlags a).real "backtest" "stop_loss" = .ok a.stopLoss
  periodSigned : (Ini.empty.withBacktestFlags a).int64 "backtest" "time_period" =
    .ok (a.timePeriod.map (fun n : Nat => (n : Int)))
  period : (Ini.empty.withBacktestFlags a).size "backtest" "time_period" = .ok a.timePeriod
  minibatchSigned : (Ini.empty.withBacktestFlags a).int64 "backtest" "minibatch_size" =
    .ok (a.minibatch.map (fun n : Nat => (n : Int)))
  minibatch : (Ini.empty.withBacktestFlags a).size "backtest" "minibatch_size" = .ok a.minibatch
  seed : (Ini.empty.withBacktestFlags a).size "backtest" "seed" = .ok a.seed

/-- The flags read back as themselves when every count is within the range its reader takes:
the signed 64-bit range for the counts the checks read signed, the seed's own for the seed. -/
theorem flagReads (hperiod : ∀ p ∈ a.timePeriod, p ≤ int64Max)
    (hbatch : ∀ k ∈ a.minibatch, k ≤ int64Max) (hseed : ∀ s ∈ a.seed, s ≤ Size.max) :
    FlagReads a where
  execution := get_withBacktestFlags a (by simp [BacktestFlags.entries])
  returnType := get_withBacktestFlags a (by simp [BacktestFlags.entries])
  cost := Ini.real_eq_ok (get_withBacktestFlags a (by simp [BacktestFlags.entries]))
  profitTake := Ini.real_eq_ok (get_withBacktestFlags a (by simp [BacktestFlags.entries]))
  stopLoss := Ini.real_eq_ok (get_withBacktestFlags a (by simp [BacktestFlags.entries]))
  periodSigned := Ini.int64_eq_ok (get_withBacktestFlags a (by simp [BacktestFlags.entries])) hperiod
  period := Ini.size_eq_ok (get_withBacktestFlags a (by simp [BacktestFlags.entries]))
    (fun p hp => (hperiod p hp).trans int64Max_le_max)
  minibatchSigned := Ini.int64_eq_ok (get_withBacktestFlags a (by simp [BacktestFlags.entries]))
    hbatch
  minibatch := Ini.size_eq_ok (get_withBacktestFlags a (by simp [BacktestFlags.entries]))
    (fun k hk => (hbatch k hk).trans int64Max_le_max)
  seed := Ini.size_eq_ok (get_withBacktestFlags a (by simp [BacktestFlags.entries])) hseed

variable {a}

/-- The policy read from the flags is the intended one. -/
theorem FlagReads.policy (h : FlagReads a) (kind : ExecutionKind) :
    (Ini.empty.withBacktestFlags a).policy kind = .ok (a.intended kind).policy := by
  cases kind <;> simp [Ini.policy, h.profitTake, h.stopLoss, h.period, BacktestFlags.intended,
    bind, Except.bind, pure, Except.pure]

/-- The checks of the backtest part, on the flags: the cost in `[0, 1)`, each flagged
profit-take, stop-loss and time period in its range, and no empty minibatch. -/
theorem FlagReads.validateBacktest_iff (h : FlagReads a)
    (hexec : ExecutionKind.ofName (a.execution.getD defaultExecution) = .ok kind)
    (hret : ReturnKind.ofName (a.returnType.getD defaultReturnType) = .ok returns) :
    (Ini.empty.withBacktestFlags a).validateBacktest = .ok () ↔
      (0.0 ≤ a.transactionCost.getD defaultTransactionCost ∧
        a.transactionCost.getD defaultTransactionCost < 1.0) ∧
      (∀ pt ∈ a.profitTake, 0.0 < pt) ∧ (∀ sl ∈ a.stopLoss, sl < 0.0) ∧
      (∀ p ∈ a.timePeriod, 1 ≤ p) ∧ a.minibatch ≠ some 0 := by
  rw [Ini.validateBacktest_eq_ok_iff]
  simp only [Ini.validateName_eq_ok h.execution hexec, Ini.validateName_eq_ok h.returnType hret,
    h.cost, h.profitTake, h.stopLoss, h.periodSigned, h.minibatchSigned, h.seed, Except.ok.injEq,
    exists_eq_left', exists_eq', true_and, and_true, getD_iff_forall_mem defaultProfitTake_pos,
    getD_iff_forall_mem (P := fun x : Float => x < 0.0) defaultStopLoss_neg]
  -- a count checked in the signed range is the count read as a signed number
  have hper : 1 ≤ (a.timePeriod.map (fun n : Nat => (n : Int))).getD (defaultTimePeriod : Int) ↔
      ∀ p ∈ a.timePeriod, 1 ≤ p := by
    cases a.timePeriod <;> simp [defaultTimePeriod]
  have hmb : (∀ n ∈ a.minibatch.map (fun n : Nat => (n : Int)), 1 ≤ n) ↔ a.minibatch ≠ some 0 := by
    cases a.minibatch <;> simp
    omega
  rw [hper, hmb]

variable (a)

/-- The settings read back from the flags: when the execution and return type name known kinds
and every count is within the signed 64-bit range (the seed within its own), the flags give
exactly the settings they ask for, or fail, and they give them exactly when those settings are
valid and each flagged profit-take, stop-loss and time period is in its range. -/
theorem backtestSettings_withBacktestFlags_eq_ok_iff
    (hexec : ExecutionKind.ofName (a.execution.getD defaultExecution) = .ok kind)
    (hret : ReturnKind.ofName (a.returnType.getD defaultReturnType) = .ok returns)
    (hperiod : ∀ p ∈ a.timePeriod, p ≤ int64Max) (hbatch : ∀ k ∈ a.minibatch, k ≤ int64Max)
    (hseed : ∀ s ∈ a.seed, s ≤ Size.max) (s : BacktestSettings) :
    (Ini.empty.withBacktestFlags a).backtestSettings = .ok s ↔
      s = ⟨a.intended kind, returns⟩ ∧ (a.intended kind).validate = .ok () ∧
        (∀ pt ∈ a.profitTake, 0.0 < pt) ∧ (∀ sl ∈ a.stopLoss, sl < 0.0) ∧
        (∀ p ∈ a.timePeriod, 1 ≤ p) := by
  have h := flagReads a hperiod hbatch hseed
  -- past the checks every read gives the flag, so the settings are the intended ones
  unfold Ini.backtestSettings
  simp only [bind_eq_ok_iff, h.execution, hexec, h.policy, h.cost, h.minibatch, h.seed,
    h.returnType, hret, Except.ok.injEq, exists_eq_left', pure, Except.pure, Unique.exists_iff]
  rw [validate_eq_ok_iff, h.validateBacktest_iff hexec hret]
  constructor
  · rintro ⟨⟨hc, hpt, hsl, hper, hmb⟩, rfl⟩
    exact ⟨rfl, ⟨hc, intended_inRange a kind hpt hsl hper, hmb⟩, hpt, hsl, hper⟩
  · rintro ⟨rfl, ⟨hc, -, hmb⟩, hpt, hsl, hper⟩
    exact ⟨⟨hc, hpt, hsl, hper, hmb⟩, rfl⟩

/-- Flags survive the trip through the configuration. With an execution and a return type
that name known kinds, and counts in the signed 64-bit range, the flags give settings with the
configuration they ask for exactly when that configuration is valid and each flagged
profit-take, stop-loss and time period is in its range. Whatever the configuration, settings
it gives are valid. -/
theorem backtestSettings_flags_roundTrip
    (hexec : ExecutionKind.ofName (a.execution.getD defaultExecution) = .ok kind)
    (hret : ReturnKind.ofName (a.returnType.getD defaultReturnType) = .ok returns)
    (hperiod : ∀ p ∈ a.timePeriod, p ≤ int64Max) (hbatch : ∀ k ∈ a.minibatch, k ≤ int64Max)
    (hseed : ∀ s ∈ a.seed, s ≤ Size.max) :
    ((∃ s, (Ini.empty.withBacktestFlags a).backtestSettings = .ok s ∧
        s.config = a.intended kind) ↔
      (a.intended kind).validate = .ok () ∧ (∀ pt ∈ a.profitTake, 0.0 < pt) ∧
        (∀ sl ∈ a.stopLoss, sl < 0.0) ∧ (∀ p ∈ a.timePeriod, 1 ≤ p)) ∧
    ∀ (ini : Ini) (s : BacktestSettings), ini.backtestSettings = .ok s →
      s.config.validate = .ok () := by
  have hsettings := backtestSettings_withBacktestFlags_eq_ok_iff a hexec hret hperiod hbatch hseed
  refine ⟨⟨?_, ?_⟩, fun ini s h => validate_of_backtestSettings h⟩
  · rintro ⟨s, hs, -⟩
    exact ((hsettings s).mp hs).2
  · intro hconds
    exact ⟨_, (hsettings _).mpr ⟨rfl, hconds⟩, rfl⟩

/-- A time stop of five days with a seed, and defaults for the rest. -/
theorem backtestSettings_flags_roundTrip_timeStop :
    ∃ s, (Ini.empty.withBacktestFlags
        ⟨some "TimeStop", none, none, none, some 5, none, some 7, none⟩).backtestSettings = .ok s ∧
      s.config = ⟨.timeStop 5, defaultTransactionCost, none, some 7⟩ :=
  (backtestSettings_flags_roundTrip ⟨some "TimeStop", none, none, none, some 5, none, some 7, none⟩
    (show ExecutionKind.ofName ((some "TimeStop").getD defaultExecution) = .ok .timeStop from rfl)
    (show ReturnKind.ofName ((none : Option String).getD defaultReturnType) = .ok .simple from rfl)
    (by simp [int64Max]) (by simp) (by simp [Size.max])).1.mpr
    ⟨(validate_eq_ok_iff _).mpr ⟨by decide, show 5 ≠ 0 by decide, by decide⟩, by simp, by simp,
      by simp⟩

end Flags

/-- A time period beyond the signed 64-bit range is refused although the settings it asks for
are valid: the check reads it as a signed number before the settings read it unsigned. -/
theorem backtestSettings_timePeriod_beyond_int64 :
    (BacktestFlags.intended ⟨some "TimestopHit", none, none, none, some 18446744073709551615,
        none, none, none⟩ .timeStop).validate = .ok () ∧
    (Ini.empty.withBacktestFlags ⟨some "TimestopHit", none, none, none, some 18446744073709551615,
        none, none, none⟩).backtestSettings =
      .error (.configInvalid "backtest" "time_period"
        "'18446744073709551615': number too large to fit in target type") :=
  ⟨by rfl, by rfl⟩

end Config
end Backtest
