import Mathlib
import Backtest.Proofs.Trading.Policies
/-!
# Proofs.Trading.StopLoss — stop-loss / profit-take against its reference definition

The reference definition of the policy over a range `[a, b)` of a close series of length `L`:
the first round trip is bought at the first set signal of `[a, b)`; a position bought at `e`
is sold at the first later index `j < L` where the return after costs, sold at `j` over
bought at `e`, reaches the stop-loss or the profit-take, or at the last index if none does;
the next purchase is at the first set signal from one past that sale to `b`; and when there
is none the run ends. Entries are confined to the range, exits are not.

* `tripReturn`, `crossesAt` — the return of a round trip and whether it reaches a bound;
* `FirstSignal`, `StopLossExit`, `ReferenceTrips` — the reference definition, as relations;
* `firstSignal_first`, `stopLossExit_spec` — the two searches meet their parts of it;
* `stopLossOrders_reference` — the orders of the policy are the round trips of the reference
  definition, which determines them, and no exit is missed.
-/

namespace Backtest
namespace Trading

/-! ## The reference definition -/

/-- The return after costs of a position bought at the close of `i` and sold at the close of
`j`. -/
def tripReturn (closes : List Float) (cost : Float) (i j : Nat) : Float :=
  costAdjustedSell (closes.getD j 0.0) cost / costAdjustedBuy (closes.getD i 0.0) cost - 1.0

/-- Whether a position bought at `i` reaches the stop-loss or the profit-take when sold at
`j`. -/
def crossesAt (closes : List Float) (pt sl cost : Float) (i j : Nat) : Bool :=
  tripReturn closes cost i j <= sl || tripReturn closes cost i j >= pt

/-- `e` is the first index of `[c, stop)` whose signal is set. -/
def FirstSignal (signals : List Bool) (stop c e : Nat) : Prop :=
  c ≤ e ∧ e < stop ∧ signals.getD e false = true ∧
    ∀ j, c ≤ j → j < e → signals.getD j false = false

/-- `x` is where a position bought at `e` is sold: the first later index of the series at which
its return reaches a bound, or the last index when it reaches none. -/
def StopLossExit (closes : List Float) (pt sl cost : Float) (e x : Nat) : Prop :=
  (e < x ∧ x < closes.length ∧ crossesAt closes pt sl cost e x = true ∧
      ∀ j, e < j → j < x → crossesAt closes pt sl cost e j = false) ∨
    (x = closes.length - 1 ∧
      ∀ j, e < j → j < closes.length → crossesAt closes pt sl cost e j = false)

/-- Round trips as the reference definition gives them, the search for the next purchase
starting at `c`: no set signal is left in `[c, stop)` when they end. -/
def ReferenceTrips (signals : List Bool) (closes : List Float) (stop : Nat) (pt sl cost : Float) :
    Nat → List (Nat × Nat) → Prop
  | c, [] => ∀ j, c ≤ j → j < stop → signals.getD j false = false
  | c, (e, x) :: rest => FirstSignal signals stop c e ∧ StopLossExit closes pt sl cost e x ∧
      ReferenceTrips signals closes stop pt sl cost (x + 1) rest

section Reference

variable {signals : List Bool} {closes : List Float} {stop : Nat} {pt sl cost : Float}

/-- The first set signal is unique. -/
theorem FirstSignal.unique {c e e' : Nat} (h : FirstSignal signals stop c e)
    (h' : FirstSignal signals stop c e') : e = e' := by
  obtain ⟨hce, -, hset, hbefore⟩ := h
  obtain ⟨hce', -, hset', hbefore'⟩ := h'
  -- an earlier one would be unset by the leastness of the other
  rcases Nat.lt_trichotomy e e' with hlt | heq | hgt
  · rw [hbefore' e hce hlt] at hset
    cases hset
  · exact heq
  · rw [hbefore e' hce' hgt] at hset'
    cases hset'

/-- The exit is unique: a crossing before the last index is the first one, and none can
stand where the reference finds none. -/
theorem StopLossExit.unique {e x x' : Nat} (h : StopLossExit closes pt sl cost e x)
    (h' : StopLossExit closes pt sl cost e x') : x = x' := by
  rcases h with ⟨hex, hxn, hx, hbefore⟩ | ⟨rfl, hnone⟩ <;>
    rcases h' with ⟨hex', hxn', hx', hbefore'⟩ | ⟨rfl, hnone'⟩
  · rcases Nat.lt_trichotomy x x' with hlt | heq | hgt
    · rw [hbefore' x hex hlt] at hx
      cases hx
    · exact heq
    · rw [hbefore x' hex' hgt] at hx'
      cases hx'
  · rw [hnone' x hex hxn] at hx
    cases hx
  · rw [hnone x' hex' hxn'] at hx'
    cases hx'
  · rfl

/-- Every round trip of the reference is sold where the reference sells. -/
theorem ReferenceTrips.exit {c : Nat} {trips : List (Nat × Nat)}
    (h : ReferenceTrips signals closes stop pt sl cost c trips) :
    ∀ t ∈ trips, StopLossExit closes pt sl cost t.1 t.2 := by
  induction trips generalizing c with
  | nil => simp
  | cons t rest ih =>
    obtain ⟨e, x⟩ := t
    obtain ⟨-, hexit, hrest⟩ := h
    intro t' ht'
    rcases List.mem_cons.mp ht' with rfl | ht'
    · exact hexit
    · exact ih hrest t' ht'

/-- The reference definition determines the round trips. -/
theorem ReferenceTrips.unique {c : Nat} {trips trips' : List (Nat × Nat)}
    (h : ReferenceTrips signals closes stop pt sl cost c trips)
    (h' : ReferenceTrips signals closes stop pt sl cost c trips') : trips = trips' := by
  induction trips generalizing c trips' with
  | nil =>
    cases trips' with
    | nil => rfl
    | cons t' rest' =>
      -- a purchase needs a set signal where the reference has none
      obtain ⟨e', x'⟩ := t'
      obtain ⟨⟨hce, hes, hset, -⟩, -, -⟩ := h'
      rw [h e' hce hes] at hset
      cases hset
  | cons t rest ih =>
    obtain ⟨e, x⟩ := t
    obtain ⟨hfirst, hexit, hrest⟩ := h
    cases trips' with
    | nil =>
      obtain ⟨hce, hes, hset, -⟩ := hfirst
      rw [h' e hce hes] at hset
      cases hset
    | cons t' rest' =>
      obtain ⟨e', x'⟩ := t'
      obtain ⟨hfirst', hexit', hrest'⟩ := h'
      obtain rfl := hfirst.unique hfirst'
      obtain rfl := hexit.unique hexit'
      rw [ih hrest hrest']

/-- Inside a round trip of the reference no bound is reached before the sale. -/
theorem StopLossExit.no_earlier_crossing {e x : Nat} (h : StopLossExit closes pt sl cost e x) :
    ∀ j, e < j → j < x → crossesAt closes pt sl cost e j = false := by
  rcases h with ⟨-, -, -, hbefore⟩ | ⟨rfl, hnone⟩
  · exact hbefore
  · intro j hej hjx
    exact hnone j hej (by omega)

end Reference

/-! ## The searches of the policy -/

section Searches

variable {signals : List Bool} {closes : List Float} {stop : Nat} {pt sl cost : Float}

/-- The entry found from `c` is the first set signal of `[c, stop)`. -/
theorem firstSignal_first {c e : Nat} (h : firstSignal signals stop c = some e) :
    FirstSignal signals stop c e := by
  fun_induction firstSignal signals stop c with
  | case1 i hlt hsig =>
    simp only [Option.some.injEq] at h
    subst h
    exact ⟨le_rfl, hlt, hsig, fun j hij hje => absurd hje (by omega)⟩
  | case2 i hlt hsig ih =>
    obtain ⟨hle, hlt', hset, hbefore⟩ := ih h
    refine ⟨by omega, hlt', hset, fun j hij hje => ?_⟩
    rcases Nat.eq_or_lt_of_le hij with rfl | hlt''
    · simpa using hsig
    · exact hbefore j hlt'' hje
  | case3 => simp at h

/-- No entry is found from `c` exactly when no signal of `[c, stop)` is set. -/
theorem firstSignal_eq_none {c : Nat} (h : firstSignal signals stop c = none) :
    ∀ j, c ≤ j → j < stop → signals.getD j false = false := by
  fun_induction firstSignal signals stop c with
  | case1 => simp at h
  | case2 i hlt hsig ih =>
    intro j hij hjs
    rcases Nat.eq_or_lt_of_le hij with rfl | hlt'
    · simpa using hsig
    · exact ih h j hlt' hjs
  | case3 i hge =>
    intro j hij hjs
    omega

/-- The exit scan from `j` finds the first index of `[j, L)` at which the position bought at
`e` reaches a bound. -/
theorem firstExit_first {e j x : Nat}
    (h : firstExit closes (costAdjustedBuy (closes.getD e 0.0) cost) pt sl cost j = some x) :
    j ≤ x ∧ x < closes.length ∧ crossesAt closes pt sl cost e x = true ∧
      ∀ k, j ≤ k → k < x → crossesAt closes pt sl cost e k = false := by
  fun_induction firstExit closes (costAdjustedBuy (closes.getD e 0.0) cost) pt sl cost j with
  | case1 i hlt r hcross =>
    simp only [Option.some.injEq] at h
    subst h
    exact ⟨le_rfl, hlt, hcross, fun k hik hkx => absurd hkx (by omega)⟩
  | case2 i hlt r hcross ih =>
    obtain ⟨hle, hlt', hx, hbefore⟩ := ih h
    refine ⟨by omega, hlt', hx, fun k hik hkx => ?_⟩
    rcases Nat.eq_or_lt_of_le hik with rfl | hlt''
    · exact Bool.eq_false_iff.mpr hcross
    · exact hbefore k hlt'' hkx
  | case3 => simp at h

theorem firstExit_eq_none {e j : Nat}
    (h : firstExit closes (costAdjustedBuy (closes.getD e 0.0) cost) pt sl cost j = none) :
    ∀ k, j ≤ k → k < closes.length → crossesAt closes pt sl cost e k = false := by
  fun_induction firstExit closes (costAdjustedBuy (closes.getD e 0.0) cost) pt sl cost j with
  | case1 => simp at h
  | case2 i hlt r hcross ih =>
    intro k hik hkn
    rcases Nat.eq_or_lt_of_le hik with rfl | hlt'
    · exact Bool.eq_false_iff.mpr hcross
    · exact ih h k hlt' hkn
  | case3 i hge =>
    intro k hik hkn
    omega

/-- The policy sells a position bought at `e` where the reference sells it. -/
theorem stopLossExit_spec (e : Nat) :
    StopLossExit closes pt sl cost e (stopLossExit closes pt sl cost e) := by
  simp only [stopLossExit]
  cases hx : firstExit closes (costAdjustedBuy (closes.getD e 0.0) cost) pt sl cost (e + 1) with
  | none => exact .inr ⟨rfl, fun j hej hjn => firstExit_eq_none hx j hej hjn⟩
  | some x =>
    obtain ⟨hex, hxn, hcross, hbefore⟩ := firstExit_first hx
    exact .inl ⟨hex, hxn, hcross, fun j hej hjx => hbefore j hej hjx⟩

/-- The round trips of the policy from `c` are those of the reference definition, for a range
that ends within the series. -/
theorem stopLossTrips_reference (hstop : stop ≤ closes.length) (c : Nat) :
    ReferenceTrips signals closes stop pt sl cost c
      (stopLossTrips signals closes stop pt sl cost c) := by
  fun_induction stopLossTrips signals closes stop pt sl cost c with
  | case1 cursor _ hnone => exact firstSignal_eq_none hnone
  | case2 cursor _ entry hentry _ ih =>
    exact ⟨firstSignal_first hentry, stopLossExit_spec entry, ih⟩
  | case3 cursor _ entry hentry hpast =>
    -- the exit never falls before the cursor, since the entry lies inside the series
    obtain ⟨hle, hlt, -, -⟩ := firstSignal_first hentry
    have := (stopLossExit_bounds closes pt sl cost (Nat.lt_of_lt_of_le hlt hstop)).1
    omega
  | case4 cursor hge =>
    intro j hcj hjs
    omega

end Searches

theorem tripOrders_injective {trips trips' : List (Nat × Nat)}
    (h : tripOrders trips = tripOrders trips') : trips = trips' := by
  induction trips generalizing trips' with
  | nil =>
    cases trips' with
    | nil => rfl
    | cons t' rest' =>
      obtain ⟨e', x'⟩ := t'
      simp at h
  | cons t rest ih =>
    obtain ⟨e, x⟩ := t
    cases trips' with
    | nil => simp at h
    | cons t' rest' =>
      obtain ⟨e', x'⟩ := t'
      simp only [tripOrders_cons, List.cons.injEq, Prod.mk.injEq, true_and] at h
      obtain ⟨rfl, rfl, hrest⟩ := h
      rw [ih hrest]

/-- Stop-loss / profit-take follows its reference definition. Over a range `[a, b)` that ends
within the close series, the orders of the policy are the round trips of the reference
definition: each bought at the first set signal from where the search resumes, sold at the
first later index whose return after costs reaches the stop-loss or the profit-take, or at the
last index, the search resuming one past the sale, and no set signal left when they end.
The reference determines the round trips, and inside each one no bound is reached before
its sale. -/
theorem stopLossOrders_reference (signals : List Bool) (closes : List Float) (pt sl cost : Float)
    {a b : Nat} (hb : b ≤ closes.length) :
    ∃ trips,
      policyOrders (.stopLossProfitTake pt sl) cost signals closes a b = tripOrders trips ∧
      ReferenceTrips signals closes b pt sl cost a trips ∧
      (∀ trips', ReferenceTrips signals closes b pt sl cost a trips' → trips' = trips) ∧
      ∀ t ∈ trips, ∀ j, t.1 < j → j < t.2 →
        crossesAt closes pt sl cost t.1 j = false := by
  have href : ReferenceTrips signals closes b pt sl cost a
      (stopLossTrips signals closes b pt sl cost a) := stopLossTrips_reference hb a
  refine ⟨stopLossTrips signals closes b pt sl cost a, rfl, href,
    fun trips' h' => h'.unique href, fun t ht => ?_⟩
  exact (href.exit t ht).no_earlier_crossing

/-- The stop-loss sample of the policy's own tests: closes `10, 9.9, 9, 9.5, 12` and signals
at the first and fourth index, with a profit-take of `0.2` and a stop-loss of `-0.05`. -/
theorem stopLossOrders_reference_sample :
    5 ≤ [10.0, 9.9, 9.0, 9.5, 12.0].length ∧
      ∃ trips, policyOrders (.stopLossProfitTake 0.2 (-0.05)) 0.0
          [true, false, false, true, false] [10.0, 9.9, 9.0, 9.5, 12.0] 0 5 = tripOrders trips ∧
        ReferenceTrips [true, false, false, true, false] [10.0, 9.9, 9.0, 9.5, 12.0] 5 0.2 (-0.05)
          0.0 0 trips ∧
        (∀ trips', ReferenceTrips [true, false, false, true, false] [10.0, 9.9, 9.0, 9.5, 12.0] 5
          0.2 (-0.05) 0.0 0 trips' → trips' = trips) ∧
        ∀ t ∈ trips, ∀ j, t.1 < j → j < t.2 →
          crossesAt [10.0, 9.9, 9.0, 9.5, 12.0] 0.2 (-0.05) 0.0 t.1 j = false :=
  ⟨by decide, stopLossOrders_reference _ _ _ _ _ (by decide)⟩

end Trading
end Backtest
