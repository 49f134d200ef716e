import Mathlib
import Backtest.Proofs.Trading.StopLoss
/-!
# Proofs.Trading.TimeStop — the time stop against its reference definition

The time stop walks a range `[a, b)` of a close series of length `L` with a cursor. Past an
unset signal the cursor steps by one. At a set signal the policy buys, sells at the target
`cursor + P` clipped to the range end or the last index, and jumps the cursor to the target,
a saturating addition.

* `timeStopStep`, `timeStopLoop` — one pass of the loop body, and at most `n` passes of the
  loop;
* `timeStopLoop_finishes` — with a period of at least one and a range that fits in a count,
  the loop leaves the range within `b - a` passes, having emitted `timeStopTrips`;
  `timeStopLoop_cursor_le` — and its cursor never passes the largest count;
* `TimeStopExit`, `TimeStopReference` — the reference definition: the first purchase at the
  first set signal of `[a, b)`, the next one at the first set signal from the previous
  purchase plus the period, each sale at that target if it lies inside the range, else at the
  last index if the target lies past it, else at the range end;
* `timeStopTrips_reference`, `TimeStopReference.unique` — the policy's round trips are the
  reference's, which determines them;
* `TimeStopReference.bounds`, `TimeStopReference.exit_le_next` — a position is held at most
  the period, sold by the last index, and sold no later than the next purchase.
-/

namespace Backtest
namespace Trading

/-! ## The loop -/

/-- The state of the time-stop loop: its cursor and the round trips emitted so far. -/
structure TimeStopState where
  cursor : Nat
  trips : List (Nat × Nat)

/-- One pass of the loop body: past an unset signal the cursor steps by one; at a set signal a
round trip is emitted and the cursor jumps to the target. -/
def timeStopStep (signals : List Bool) (lastIndex stop period : Nat) (st : TimeStopState) :
    TimeStopState :=
  if signals.getD st.cursor false then
    ⟨Size.satAdd st.cursor period,
      st.trips ++ [(st.cursor, timeStopExit lastIndex stop (Size.satAdd st.cursor period))]⟩
  else ⟨st.cursor + 1, st.trips⟩

/-- At most `n` passes of the loop, which stops when its cursor reaches the range end. -/
def timeStopLoop (signals : List Bool) (lastIndex stop period : Nat) :
    Nat → TimeStopState → TimeStopState
  | 0, st => st
  | n + 1, st =>
    if st.cursor < stop then
      timeStopLoop signals lastIndex stop period n (timeStopStep signals lastIndex stop period st)
    else st

section Loop

variable {signals : List Bool} {lastIndex stop period : Nat}

/-- A pass from inside a range that fits in a count leaves the cursor a count: a step by one
stays within the range end, and a jump saturates. -/
theorem timeStopStep_cursor_le (hfit : stop ≤ Size.max) {st : TimeStopState}
    (hc : st.cursor < stop) : (timeStopStep signals lastIndex stop period st).cursor ≤ Size.max := by
  unfold timeStopStep Size.satAdd
  split
  · exact Nat.min_le_right _ _
  · exact hc.trans_le hfit

/-- Below the largest count, a jump by a positive period moves the cursor forward. -/
theorem lt_satAdd {c : Nat} (hP : 0 < period) (hc : c < Size.max) : c < Size.satAdd c period := by
  simp only [Size.satAdd, Nat.min_def]
  split <;> omega

/-- Once the cursor has left the range, further passes change nothing. -/
theorem timeStopLoop_of_le {st : TimeStopState} (hst : stop ≤ st.cursor) (n : Nat) :
    timeStopLoop signals lastIndex stop period n st = st := by
  cases n with
  | zero => rfl
  | succ n => rw [timeStopLoop, if_neg (by omega)]

/-- The loop never takes its cursor past the largest count. -/
theorem timeStopLoop_cursor_le (hfit : stop ≤ Size.max) (n : Nat) {st : TimeStopState}
    (hst : st.cursor ≤ Size.max) : (timeStopLoop signals lastIndex stop period n st).cursor ≤ Size.max := by
  induction n generalizing st with
  | zero => exact hst
  | succ n ih =>
    rw [timeStopLoop]
    split
    · exact ih (timeStopStep_cursor_le hfit ‹_›)
    · exact hst

/-- With a positive period and a range that fits in a count, the loop from `c` with at least
`stop - c` passes left leaves the range, having emitted exactly the round trips of
`timeStopTrips` from `c`: each pass moves the cursor forward, so `stop - c` passes suffice. -/
theorem timeStopLoop_finishes (hP : 0 < period) (hfit : stop ≤ Size.max) (c : Nat) :
    ∀ {n : Nat}, stop - c ≤ n → ∀ acc : List (Nat × Nat),
      stop ≤ (timeStopLoop signals lastIndex stop period n ⟨c, acc⟩).cursor ∧
        (timeStopLoop signals lastIndex stop period n ⟨c, acc⟩).trips =
          acc ++ timeStopTrips signals lastIndex stop period c := by
  fun_induction timeStopTrips signals lastIndex stop period c with
  | case1 cursor hlt hsig target exit hjump =>
    -- a set signal: one round trip, and the loop goes on from the target with a pass less
    rename_i ih
    intro n hn acc
    obtain ⟨m, rfl⟩ : ∃ m, n = m + 1 := ⟨n - 1, by omega⟩
    have hstep : timeStopStep signals lastIndex stop period ⟨cursor, acc⟩ =
        ⟨target, acc ++ [(cursor, exit)]⟩ := by
      simp only [timeStopStep, hsig, ↓reduceIte]
      rfl
    rw [timeStopLoop, if_pos hlt, hstep]
    clear_value exit target
    obtain ⟨hend, htrips⟩ := ih (show stop - target ≤ m by omega) (acc ++ [(cursor, exit)])
    exact ⟨hend, by rw [htrips, List.append_assoc, List.singleton_append]⟩
  | case2 cursor hlt hsig target exit =>
    -- the cursor lies below the largest count, so the jump moves it forward
    rename_i hjump
    exact absurd (lt_satAdd hP (Nat.lt_of_lt_of_le hlt hfit)) hjump
  | case3 cursor hlt hsig ih =>
    intro n hn acc
    obtain ⟨m, rfl⟩ : ∃ m, n = m + 1 := ⟨n - 1, by omega⟩
    have hstep : timeStopStep signals lastIndex stop period ⟨cursor, acc⟩ = ⟨cursor + 1, acc⟩ := by
      simp only [timeStopStep, hsig, Bool.false_eq_true, ↓reduceIte]
    rw [timeStopLoop, if_pos hlt, hstep]
    exact ih (by omega) acc
  | case4 cursor hge =>
    intro n _ acc
    rw [timeStopLoop_of_le (Nat.le_of_not_lt hge)]
    exact ⟨Nat.le_of_not_lt hge, by simp⟩

end Loop

/-! ## The reference definition -/

/-- Where the reference sells a position bought at `e`, the target `e + P` being saturated: at
the target if it lies inside the range, else at the last index if the target lies past it,
else at the range end. -/
def TimeStopExit (lastIndex stop period e x : Nat) : Prop :=
  Size.satAdd e period < stop ∧ x = Size.satAdd e period ∨
    stop ≤ Size.satAdd e period ∧ lastIndex < Size.satAdd e period ∧ x = lastIndex ∨
    stop ≤ Size.satAdd e period ∧ Size.satAdd e period ≤ lastIndex ∧ x = stop

/-- Round trips as the reference definition gives them, the search for the next purchase
starting at `c`: no set signal is left in `[c, stop)` when they end. -/
def TimeStopReference (signals : List Bool) (lastIndex stop period : Nat) :
    Nat → List (Nat × Nat) → Prop
  | c, [] => ∀ j, c ≤ j → j < stop → signals.getD j false = false
  | c, (e, x) :: rest => FirstSignal signals stop c e ∧ TimeStopExit lastIndex stop period e x ∧
      TimeStopReference signals lastIndex stop period (Size.satAdd e period) rest

section Reference

variable {signals : List Bool} {lastIndex stop period : Nat}

theorem timeStopExit_spec (e : Nat) :
    TimeStopExit lastIndex stop period e (timeStopExit lastIndex stop (Size.satAdd e period)) := by
  unfold TimeStopExit timeStopExit
  split
  · exact .inl ⟨‹_›, rfl⟩
  · split
    · exact .inr (.inl ⟨by omega, ‹_›, rfl⟩)
    · exact .inr (.inr ⟨by omega, by omega, rfl⟩)

theorem TimeStopExit.unique {e x x' : Nat} (h : TimeStopExit lastIndex stop period e x)
    (h' : TimeStopExit lastIndex stop period e x') : x = x' := by
  unfold TimeStopExit at h h'
  omega

/-- A sale of the reference lies between the purchase and the last index, at most the period
after the purchase, and not past the target. -/
theorem TimeStopExit.bounds {e x : Nat} (h : TimeStopExit lastIndex stop period e x)
    (he : e < stop) (hstop : stop ≤ lastIndex + 1) (hfit : stop ≤ Size.max) :
    e ≤ x ∧ x ≤ e + period ∧ x ≤ lastIndex ∧ x ≤ Size.satAdd e period := by
  have hsat : Size.satAdd e period ≤ e + period := Nat.min_le_left _ _
  have hle : e ≤ Size.satAdd e period := le_satAdd period (by omega)
  unfold TimeStopExit at h
  omega

/-- An unset signal at `c` leaves the first set signal from `c` where it is from `c + 1`. -/
theorem FirstSignal.of_unset {c e : Nat} (hc : signals.getD c false = false)
    (h : FirstSignal signals stop (c + 1) e) : FirstSignal signals stop c e := by
  obtain ⟨hce, hes, hset, hbefore⟩ := h
  refine ⟨by omega, hes, hset, fun j hcj hje => ?_⟩
  rcases Nat.eq_or_lt_of_le hcj with rfl | hlt
  · exact hc
  · exact hbefore j hlt hje

theorem TimeStopReference.of_unset {c : Nat} {trips : List (Nat × Nat)}
    (hc : signals.getD c false = false)
    (h : TimeStopReference signals lastIndex stop period (c + 1) trips) :
    TimeStopReference signals lastIndex stop period c trips := by
  cases trips with
  | nil =>
    intro j hcj hjs
    rcases Nat.eq_or_lt_of_le hcj with rfl | hlt
    · exact hc
    · exact h j hlt hjs
  | cons t rest =>
    obtain ⟨e, x⟩ := t
    obtain ⟨hfirst, hexit, hrest⟩ := h
    exact ⟨hfirst.of_unset hc, hexit, hrest⟩

/-- The reference definition determines the round trips. -/
theorem TimeStopReference.unique {c : Nat} {trips trips' : List (Nat × Nat)}
    (h : TimeStopReference signals lastIndex stop period c trips)
    (h' : TimeStopReference signals lastIndex stop period c trips') : trips = trips' := by
  induction trips generalizing c trips' with
  | nil =>
    cases trips' with
    | nil => rfl
    | cons t' rest' =>
      -- a purchase needs a set signal where the reference has none
      obtain ⟨e', x'⟩ := t'
      obtain ⟨⟨hce, hes, hset, -⟩, -, -⟩ := h'
      rw [h e' hce hes] at hset
      cases hset
  | cons t rest ih =>
    obtain ⟨e, x⟩ := t
    obtain ⟨hfirst, hexit, hrest⟩ := h
    cases trips' with
    | nil =>
      obtain ⟨hce, hes, hset, -⟩ := hfirst
      rw [h' e hce hes] at hset
      cases hset
    | cons t' rest' =>
      obtain ⟨e', x'⟩ := t'
      obtain ⟨hfirst', hexit', hrest'⟩ := h'
      obtain rfl := hfirst.unique hfirst'
      obtain rfl := hexit.unique hexit'
      rw [ih hrest hrest']

/-- Every round trip of the reference is held at most the period and sold by the last index,
for a range that ends by the last index plus one. -/
theorem TimeStopReference.bounds {c : Nat} {trips : List (Nat × Nat)}
    (h : TimeStopReference signals lastIndex stop period c trips) (hstop : stop ≤ lastIndex + 1)
    (hfit : stop ≤ Size.max) :
    ∀ t ∈ trips, t.1 ≤ t.2 ∧ t.2 - t.1 ≤ period ∧ t.2 ≤ lastIndex := by
  induction trips generalizing c with
  | nil => simp
  | cons t rest ih =>
    obtain ⟨e, x⟩ := t
    obtain ⟨hfirst, hexit, hrest⟩ := h
    intro t' ht'
    rcases List.mem_cons.mp ht' with rfl | ht'
    · obtain ⟨hex, hxp, hxl, -⟩ := hexit.bounds hfirst.2.1 hstop hfit
      exact ⟨hex, by simp only; omega, hxl⟩
    · exact ih hrest t' ht'

/-- A sale of the reference comes no later than the next purchase: the sale is at most the
target, and the next purchase is searched for from the target on. -/
theorem TimeStopReference.exit_le_next {c : Nat} {trips : List (Nat × Nat)}
    (h : TimeStopReference signals lastIndex stop period c trips) (hstop : stop ≤ lastIndex + 1)
    (hfit : stop ≤ Size.max) :
    ∀ k (hk : k + 1 < trips.length), trips[k].2 ≤ trips[k + 1].1 := by
  induction trips generalizing c with
  | nil => simp
  | cons t rest ih =>
    obtain ⟨e, x⟩ := t
    obtain ⟨hfirst, hexit, hrest⟩ := h
    intro k hk
    cases k with
    | zero =>
      cases rest with
      | nil => simp at hk
      | cons t' rest' =>
        obtain ⟨e', x'⟩ := t'
        have hx := (hexit.bounds hfirst.2.1 hstop hfit).2.2.2
        have he' := hrest.1.1
        simp only [List.getElem_cons_zero, List.getElem_cons_succ]
        omega
    | succ k =>
      simp only [List.getElem_cons_succ]
      exact ih hrest k (by simp at hk; omega)

/-- The round trips of the policy from `c` are those of the reference definition, for a
positive period and a range that fits in a count. -/
theorem timeStopTrips_reference (hP : 0 < period) (hfit : stop ≤ Size.max) (c : Nat) :
    TimeStopReference signals lastIndex stop period c
      (timeStopTrips signals lastIndex stop period c) := by
  fun_induction timeStopTrips signals lastIndex stop period c with
  | case1 cursor hlt hsig target exit hjump =>
    rename_i ih
    exact ⟨⟨le_rfl, hlt, hsig, fun j hcj hjc => absurd hjc (by omega)⟩, timeStopExit_spec cursor,
      ih⟩
  | case2 cursor hlt hsig target exit =>
    rename_i hjump
    exact absurd (lt_satAdd hP (Nat.lt_of_lt_of_le hlt hfit)) hjump
  | case3 cursor hlt hsig ih => exact ih.of_unset (by simpa using hsig)
  | case4 cursor hge =>
    intro j hcj hjs
    omega

end Reference

/-- The time stop terminates and follows its reference definition. Take a period of at least
one, a close series of length `L` that fits in a count and a range `[a, b)` with `b ≤ L`.
The loop of the policy leaves the range within `b - a` passes, its cursor never passing the
largest count, and its orders are round trips `(e, x)`: bought at the first set signal of
`[a, b)`, then at the first set signal from the previous purchase plus the period (saturated);
sold at that target if it lies inside the range, else at `L - 1` if the target lies past it,
else at `b`. The reference determines the round trips; each position is held at most the
period, sold by `L - 1`, and sold no later than the next purchase. -/
theorem timeStopOrders_reference (signals : List Bool) (closes : List Float) (cost : Float)
    {period a b : Nat} (hP : 0 < period) (hab : a ≤ b) (hb : b ≤ closes.length)
    (hfit : closes.length ≤ Size.max) :
    ∃ trips,
      policyOrders (.timeStop period) cost signals closes a b = tripOrders trips ∧
      b ≤ (timeStopLoop signals (closes.length - 1) b period (b - a) ⟨a, []⟩).cursor ∧
      (timeStopLoop signals (closes.length - 1) b period (b - a) ⟨a, []⟩).trips = trips ∧
      (∀ n, (timeStopLoop signals (closes.length - 1) b period n ⟨a, []⟩).cursor ≤ Size.max) ∧
      TimeStopReference signals (closes.length - 1) b period a trips ∧
      (∀ trips', TimeStopReference signals (closes.length - 1) b period a trips' →
        trips' = trips) ∧
      (∀ t ∈ trips, t.1 ≤ t.2 ∧ t.2 - t.1 ≤ period ∧ t.2 ≤ closes.length - 1) ∧
      ∀ k (hk : k + 1 < trips.length), trips[k].2 ≤ trips[k + 1].1 := by
  have hbfit : b ≤ Size.max := hb.trans hfit
  have hstop : b ≤ closes.length - 1 + 1 := by omega
  have href : TimeStopReference signals (closes.length - 1) b period a
      (timeStopTrips signals (closes.length - 1) b period a) :=
    timeStopTrips_reference hP hbfit a
  have hloop : b ≤ (timeStopLoop signals (closes.length - 1) b period (b - a) ⟨a, []⟩).cursor ∧
      (timeStopLoop signals (closes.length - 1) b period (b - a) ⟨a, []⟩).trips =
        [] ++ timeStopTrips signals (closes.length - 1) b period a :=
    timeStopLoop_finishes hP hbfit a (Nat.le_refl (b - a)) []
  obtain ⟨hend, htrips⟩ := hloop
  refine ⟨timeStopTrips signals (closes.length - 1) b period a, rfl, hend, htrips,
    fun n => timeStopLoop_cursor_le hbfit n (hab.trans hbfit), href,
    fun trips' h' => h'.unique href, href.bounds hstop hbfit, href.exit_le_next hstop hbfit⟩

/-- A minibatch `[0, 3)` of five closes with a period of two: the purchase at the set signal
`2` has its target `4` past the range but not past the last index, so it is sold at the range
end `3`. -/
theorem timeStopOrders_reference_minibatch :
    0 < 2 ∧ 0 ≤ 3 ∧ 3 ≤ [1.0, 2.0, 3.0, 4.0, 5.0].length ∧
      [1.0, 2.0, 3.0, 4.0, 5.0].length ≤ Size.max ∧
      ∃ trips,
        policyOrders (.timeStop 2) 0.0 [false, false, true, true, false] [1.0, 2.0, 3.0, 4.0, 5.0]
          0 3 = tripOrders trips ∧
        3 ≤ (timeStopLoop [false, false, true, true, false] 4 3 2 3 ⟨0, []⟩).cursor ∧
        (timeStopLoop [false, false, true, true, false] 4 3 2 3 ⟨0, []⟩).trips = trips ∧
        (∀ n, (timeStopLoop [false, false, true, true, false] 4 3 2 n ⟨0, []⟩).cursor ≤
          Size.max) ∧
        TimeStopReference [false, false, true, true, false] 4 3 2 0 trips ∧
        (∀ trips', TimeStopReference [false, false, true, true, false] 4 3 2 0 trips' →
          trips' = trips) ∧
        (∀ t ∈ trips, t.1 ≤ t.2 ∧ t.2 - t.1 ≤ 2 ∧ t.2 ≤ 4) ∧
        ∀ k (hk : k + 1 < trips.length), trips[k].2 ≤ trips[k + 1].1 :=
  ⟨by decide, by decide, by decide, by simp [Size.max],
    timeStopOrders_reference [false, false, true, true, false] [1.0, 2.0, 3.0, 4.0, 5.0] 0.0
      (by decide) (by decide) (by decide) (by simp [Size.max])⟩

end Trading
end Backtest
