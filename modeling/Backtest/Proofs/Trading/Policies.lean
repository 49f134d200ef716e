import Mathlib
import Backtest.Proofs.Trading.Schedule
/-!
# Proofs.Trading.Policies — each exit policy emits a schedule

The three policies walk the indices of a range `[start, stop)` with different cursors. For
each one the orders it emits form a `Schedule` whose purchases stand at set signals inside the
range and whose sales stay at or before the last index:

* stop-loss / profit-take: `firstSignal` finds the entry, `stopLossExit` the exit at or after
  it, and the cursor resumes one past the exit (`stopLossTrips_schedule`);
* time stop: the cursor jumps by the period, and the exit is clipped to the range end or the
  last index (`timeStopTrips_schedule`); the jump is a saturating addition, so the argument
  needs the range to fit in a 64-bit count;
* market timing: a flag says whether a position is held, and only the entering and exiting
  states act on it. `timingFrom` states the fold of `timingOrders` as a recursion over the
  indices (`timingOrders_eq_timingFrom`), and `timingFrom_schedule` follows that recursion.
-/

namespace Backtest
namespace Trading

theorem getD_false_eq_true {l : List Bool} {i : Nat} :
    l.getD i false = true ↔ l[i]? = some true := by
  cases h : l[i]? <;> simp [List.getD_eq_getElem?_getD, h]

/-! ## Stop-loss / profit-take -/

/-- The entry found from `i` is a set signal in `[i, stop)`. -/
theorem firstSignal_spec {signals : List Bool} {stop i e : Nat}
    (h : firstSignal signals stop i = some e) :
    i ≤ e ∧ e < stop ∧ signals[e]? = some true := by
  fun_induction firstSignal signals stop i with
  | case1 i hlt hsig =>
    simp only [Option.some.injEq] at h
    subst h
    exact ⟨Nat.le_refl _, hlt, getD_false_eq_true.mp hsig⟩
  | case2 i _ _ ih =>
    obtain ⟨hle, hlt, hsig⟩ := ih h
    exact ⟨by omega, hlt, hsig⟩
  | case3 => simp at h

/-- The exit found from `j` is an index of the series at or after `j`. -/
theorem firstExit_spec {closes : List Float} {paid pt sl cost : Float} {j r : Nat}
    (h : firstExit closes paid pt sl cost j = some r) : j ≤ r ∧ r < closes.length := by
  fun_induction firstExit closes paid pt sl cost j with
  | case1 j hlt _ _ =>
    simp only [Option.some.injEq] at h
    subst h
    exact ⟨Nat.le_refl _, hlt⟩
  | case2 j _ _ _ ih =>
    obtain ⟨hle, hlt⟩ := ih h
    exact ⟨by omega, hlt⟩
  | case3 => simp at h

/-- A position bought at an index of the series is sold at or after it, and at the latest at
the last index. -/
theorem stopLossExit_bounds (closes : List Float) (pt sl cost : Float) {entry : Nat}
    (h : entry < closes.length) :
    entry ≤ stopLossExit closes pt sl cost entry ∧
      stopLossExit closes pt sl cost entry ≤ closes.length - 1 := by
  simp only [stopLossExit]
  generalize hx : firstExit closes _ pt sl cost (entry + 1) = found
  cases found with
  | none =>
    simp only [Option.getD_none]
    omega
  | some r =>
    have := firstExit_spec hx
    simp only [Option.getD_some]
    omega

/-- Stop-loss / profit-take round trips from `cursor` form a schedule starting at `cursor`
whose purchases are set signals before `stop`. -/
theorem stopLossTrips_schedule {signals : List Bool} {closes : List Float} {stop : Nat}
    {pt sl cost : Float} (hstop : stop ≤ closes.length) (cursor : Nat) :
    Schedule (fun b => b < stop ∧ signals[b]? = some true) (closes.length - 1) cursor
      (tripOrders (stopLossTrips signals closes stop pt sl cost cursor)) := by
  fun_induction stopLossTrips signals closes stop pt sl cost cursor with
  | case1 => exact .nil _
  | case2 cursor _ entry hentry _ ih =>
    obtain ⟨hle, hlt, hsig⟩ := firstSignal_spec hentry
    obtain ⟨hbs, hs⟩ := stopLossExit_bounds closes pt sl cost (Nat.lt_of_lt_of_le hlt hstop)
    -- the next search starts one past the exit, beyond both the entry and the exit
    exact .trip hle ⟨hlt, hsig⟩ hbs hs (ih.mono (by omega))
  | case3 cursor _ entry hentry _ =>
    obtain ⟨hle, hlt, hsig⟩ := firstSignal_spec hentry
    obtain ⟨hbs, hs⟩ := stopLossExit_bounds closes pt sl cost (Nat.lt_of_lt_of_le hlt hstop)
    exact .trip hle ⟨hlt, hsig⟩ hbs hs (.nil _)
  | case4 => exact .nil _

/-! ## Time stop -/

/-- Below the largest count, a saturating jump never moves the cursor back. -/
theorem le_satAdd {a : Nat} (b : Nat) (h : a ≤ Size.max) : a ≤ Size.satAdd a b := by
  simp only [Size.satAdd, Nat.min_def]
  split <;> omega

/-- A time-stop exit taken from a cursor inside a range that ends by the last index plus one
lies between the cursor and the last index, and not past the target. -/
theorem timeStopExit_bounds {lastIndex stop target cursor : Nat} (hlt : cursor < stop)
    (hstop : stop ≤ lastIndex + 1) (ht : cursor ≤ target) :
    cursor ≤ timeStopExit lastIndex stop target ∧ timeStopExit lastIndex stop target ≤ lastIndex ∧
      timeStopExit lastIndex stop target ≤ target := by
  unfold timeStopExit
  split
  · omega
  · split <;> omega

/-- Time-stop round trips from `cursor` form a schedule starting at `cursor` whose purchases
are set signals before `stop`, for a range that ends by the last index plus one and fits in a
64-bit count. -/
theorem timeStopTrips_schedule {signals : List Bool} {lastIndex stop period : Nat}
    (hstop : stop ≤ lastIndex + 1) (hfit : stop ≤ Size.max) (cursor : Nat) :
    Schedule (fun b => b < stop ∧ signals[b]? = some true) lastIndex cursor
      (tripOrders (timeStopTrips signals lastIndex stop period cursor)) := by
  fun_induction timeStopTrips signals lastIndex stop period cursor with
  | case1 cursor hlt hsig target exit hjump ih =>
    obtain ⟨hle, hlast, htarget⟩ := timeStopExit_bounds hlt hstop (Nat.le_of_lt hjump)
    -- the next purchase is at the target or later, past the entry and the exit
    exact .trip (Nat.le_refl _) ⟨hlt, getD_false_eq_true.mp hsig⟩ hle hlast (ih.mono (by omega))
  | case2 cursor hlt hsig target exit hjump =>
    obtain ⟨hle, hlast, _⟩ := timeStopExit_bounds hlt hstop
      (le_satAdd period (Nat.le_trans (Nat.le_of_lt hlt) hfit))
    exact .trip (Nat.le_refl _) ⟨hlt, getD_false_eq_true.mp hsig⟩ hle hlast (.nil _)
  | case3 cursor _ _ ih => exact ih.mono (Nat.le_succ _)
  | case4 => exact .nil _

/-! ## Market-timing states -/

namespace TimingState

/-- Whether a state holds a position: just entered, or holding since. -/
def holds : TimingState → Bool
  | enter | enterHold => true
  | neutralHold | exit | exitHold => false

/-- After any state, a set input holds a position and an unset one does not. -/
@[simp] theorem holds_next (s : TimingState) (b : Bool) : (s.next b).holds = b := by
  cases s <;> cases b <;> rfl

/-- A state enters exactly on a set input after a state that holds nothing. -/
theorem next_eq_enter {s : TimingState} {b : Bool} :
    s.next b = .enter ↔ b = true ∧ s.holds = false := by
  cases s <;> cases b <;> decide

/-- A state exits exactly on an unset input after a state that holds a position. -/
theorem next_eq_exit {s : TimingState} {b : Bool} :
    s.next b = .exit ↔ b = false ∧ s.holds = true := by
  cases s <;> cases b <;> decide

theorem foldl_trace (bs : List Bool) (s : TimingState) (acc : List TimingState) :
    (bs.foldl (fun (acc : TimingState × List TimingState) b => (acc.1.next b, acc.1.next b :: acc.2))
      (s, acc)).2 =
    (bs.foldl (fun (acc : TimingState × List TimingState) b => (acc.1.next b, acc.1.next b :: acc.2))
      (s, [])).2 ++ acc := by
  induction bs generalizing s acc with
  | nil => rfl
  | cons b bs ih =>
    simp only [List.foldl_cons]
    rw [ih (s.next b) (s.next b :: acc), ih (s.next b) [s.next b]]
    simp

@[simp] theorem trace_nil (s : TimingState) : trace s [] = [] := rfl

/-- The trace steps once per input, each state starting the rest of the trace. -/
@[simp] theorem trace_cons (s : TimingState) (b : Bool) (bs : List Bool) :
    trace s (b :: bs) = s.next b :: trace (s.next b) bs := by
  unfold trace
  simp only [List.foldl_cons]
  rw [foldl_trace bs (s.next b) [s.next b]]
  simp

@[simp] theorem length_trace (s : TimingState) (bs : List Bool) :
    (trace s bs).length = bs.length := by
  induction bs generalizing s with
  | nil => rfl
  | cons b bs ih => simp [ih]

/-- The state after the `j`-th input is the step from the state before it. -/
theorem getD_trace (s d : TimingState) (bs : List Bool) (j : Nat) (hj : j < bs.length) :
    (trace s bs).getD j d = (if j = 0 then s else (trace s bs).getD (j - 1) d).next (bs.getD j false) := by
  induction bs generalizing s j with
  | nil => simp at hj
  | cons b bs ih =>
    rcases j with _ | j
    · simp
    · simp only [trace_cons, List.getD_cons_succ]
      rw [ih (s.next b) j (by simpa using hj)]
      rcases j with _ | j <;> simp

end TimingState

/-- The input the timing states read at an index: its signal, except at the last index. -/
def timingInput (signals : List Bool) (j : Nat) : Bool :=
  signals.getD j false && j != signals.length - 1

section States

variable {signals : List Bool} {j : Nat}

@[simp] theorem length_timingStates (signals : List Bool) :
    (timingStates signals).length = signals.length := by
  simp [timingStates]

/-- The timing state at an index is the step on its input from the state before it. -/
theorem getD_timingStates (hj : j < signals.length) (d : TimingState) :
    (timingStates signals).getD j d =
      (if j = 0 then .neutralHold else (timingStates signals).getD (j - 1) d).next
        (timingInput signals j) := by
  unfold timingStates
  rw [TimingState.getD_trace _ _ _ _ (by simpa using hj)]
  -- the input at `j` is the signal there, forced off at the last index
  congr 1
  simp [timingInput, List.getD_eq_getElem?_getD, List.zip, hj]

/-- A timing state holds a position exactly where its input is set. -/
theorem holds_timingStates (hj : j < signals.length) (d : TimingState) :
    ((timingStates signals).getD j d).holds = timingInput signals j := by
  rw [getD_timingStates hj]
  simp

/-- The timing state enters where the input rises: set here, unset before or at the start. -/
theorem timingStates_eq_enter (hj : j < signals.length) :
    (timingStates signals).getD j .neutralHold = .enter ↔
      timingInput signals j = true ∧ (j = 0 ∨ timingInput signals (j - 1) = false) := by
  rw [getD_timingStates hj, TimingState.next_eq_enter]
  rcases j with _ | j
  · simp [TimingState.holds]
  · simp only [Nat.add_one_ne_zero, if_false, Nat.add_sub_cancel, false_or]
    rw [holds_timingStates (by omega)]

/-- The timing state exits where the input falls: unset here and set just before. -/
theorem timingStates_eq_exit (hj : j < signals.length) :
    (timingStates signals).getD j .neutralHold = .exit ↔
      timingInput signals j = false ∧ 0 < j ∧ timingInput signals (j - 1) = true := by
  rw [getD_timingStates hj, TimingState.next_eq_exit]
  rcases j with _ | j
  · simp [TimingState.holds]
  · simp only [Nat.add_one_ne_zero, if_false, Nat.add_sub_cancel, Nat.zero_lt_succ, true_and]
    rw [holds_timingStates (by omega)]

/-- The timing states enter only at a set signal before the last index. -/
theorem entry_of_timingStates_eq_enter (hj : j < signals.length)
    (h : (timingStates signals).getD j .neutralHold = .enter) :
    signals[j]? = some true ∧ j + 1 < signals.length := by
  have hin := ((timingStates_eq_enter hj).mp h).1
  simp only [timingInput, Bool.and_eq_true, bne_iff_ne, ne_eq] at hin
  exact ⟨getD_false_eq_true.mp hin.1, by omega⟩

end States

/-! ## Market-timing orders -/

/-- One index of the market-timing scan, the flag saying whether no position is held. -/
def timingStep (states : List TimingState) (start : Nat) (acc : Bool × List (Side × Nat))
    (k : Nat) : Bool × List (Side × Nat) :=
  let i := start + k
  match states.getD i .neutralHold, acc.1 with
  | .enter, true => (false, (.buy, i) :: acc.2)
  | .exit, false => (true, (.sell, i) :: acc.2)
  | _, _ => acc

/-- The market-timing scan of `n` indices from `i`, as a recursion over the indices. -/
def timingFrom (states : List TimingState) : Bool → Nat → Nat → List (Side × Nat)
  | _, _, 0 => []
  | flat, i, n + 1 =>
    match states.getD i .neutralHold, flat with
    | .enter, true => (.buy, i) :: timingFrom states false (i + 1) n
    | .exit, false => (.sell, i) :: timingFrom states true (i + 1) n
    | _, _ => timingFrom states flat (i + 1) n

section Scan

variable {states : List TimingState}

@[simp] theorem timingFrom_zero (flat : Bool) (i : Nat) : timingFrom states flat i 0 = [] := by
  simp [timingFrom]

theorem timingFrom_enter {i : Nat} (n : Nat) (h : states.getD i .neutralHold = .enter) :
    timingFrom states true i (n + 1) = (.buy, i) :: timingFrom states false (i + 1) n := by
  simp only [timingFrom, h]

theorem timingFrom_exit {i : Nat} (n : Nat) (h : states.getD i .neutralHold = .exit) :
    timingFrom states false i (n + 1) = (.sell, i) :: timingFrom states true (i + 1) n := by
  simp only [timingFrom, h]

theorem timingFrom_wait_flat {i : Nat} (n : Nat) (h : states.getD i .neutralHold ≠ .enter) :
    timingFrom states true i (n + 1) = timingFrom states true (i + 1) n := by
  -- a flat scan moves on past every state but an entry
  cases hs : states.getD i .neutralHold with
  | enter => exact absurd hs h
  | neutralHold | enterHold | exit | exitHold => simp only [timingFrom, hs]

theorem timingFrom_wait_held {i : Nat} (n : Nat) (h : states.getD i .neutralHold ≠ .exit) :
    timingFrom states false i (n + 1) = timingFrom states false (i + 1) n := by
  -- a holding scan moves on past every state but an exit
  cases hs : states.getD i .neutralHold with
  | exit => exact absurd hs h
  | neutralHold | enter | enterHold | exitHold => simp only [timingFrom, hs]

/-- The fold of the scan keeps its orders newest first, ahead of what it started with. -/
theorem foldl_timingStep (n start : Nat) (flat : Bool) (acc : List (Side × Nat)) :
    ((List.range n).foldl (timingStep states start) (flat, acc)).2 =
      (timingFrom states flat start n).reverse ++ acc := by
  induction n generalizing start flat acc with
  | zero => simp
  | succ n ih =>
    -- the first index is `start`; the rest of the scan is the scan from `start + 1`
    have hshift : (fun a k => timingStep states start a (k + 1)) = timingStep states (start + 1) := by
      funext a k
      simp only [timingStep, show start + (k + 1) = start + 1 + k by omega]
    rw [List.range_succ_eq_map, List.foldl_cons, List.foldl_map, hshift]
    cases hs : states.getD start .neutralHold <;> cases flat <;>
      simp only [timingStep, timingFrom, hs, Nat.add_zero, ih, List.reverse_cons,
        List.append_assoc, List.singleton_append]

theorem timingOrders_eq_timingFrom (start stop : Nat) :
    timingOrders states start stop = timingFrom states true start (stop - start) := by
  have hfold : timingOrders states start stop =
      ((List.range (stop - start)).foldl (timingStep states start) (true, [])).2.reverse := rfl
  rw [hfold, foldl_timingStep, List.append_nil, List.reverse_reverse]

/-- The scan emits a schedule from its first index while flat, and the sale that closes a
position bought earlier while holding, as long as the scan stays inside `[0, stop)` with every
entering state there an admissible entry. -/
theorem timingFrom_schedule {entry : Nat → Prop} {last stop : Nat}
    (hent : ∀ j, j < stop → states.getD j .neutralHold = .enter → entry j)
    (hlast : stop ≤ last + 1) (n : Nat) :
    ∀ i, i + n ≤ stop →
      (∀ lo, lo ≤ i → Schedule entry last lo (timingFrom states true i n)) ∧
      (∀ lo b, lo ≤ b → b < i → entry b →
        Schedule entry last lo ((.buy, b) :: timingFrom states false i n)) := by
  induction n with
  | zero =>
    intro i _
    exact ⟨fun lo _ => .nil lo, fun lo b hb _ he => .hold hb he⟩
  | succ n ih =>
    intro i hn
    obtain ⟨ihFlat, ihHeld⟩ := ih (i + 1) (by omega)
    constructor
    · -- flat: buy at an entering state, otherwise move on
      intro lo hlo
      by_cases henter : states.getD i .neutralHold = .enter
      · rw [timingFrom_enter n henter]
        exact ihHeld lo i hlo (Nat.lt_succ_self i) (hent i (by omega) henter)
      · rw [timingFrom_wait_flat n henter]
        exact ihFlat lo (by omega)
    · -- holding: sell at an exiting state, otherwise keep the position
      intro lo b hb hbi he
      by_cases hexit : states.getD i .neutralHold = .exit
      · rw [timingFrom_exit n hexit]
        exact .trip hb he (Nat.le_of_lt hbi) (by omega) (ihFlat _ (by omega))
      · rw [timingFrom_wait_held n hexit]
        exact ihHeld lo b hb (by omega) he

/-- The scan of `n` indices from `i` has no exiting state. -/
def NoExitFrom (states : List TimingState) (i n : Nat) : Prop :=
  ∀ j, i ≤ j → j < i + n → states.getD j .neutralHold ≠ .exit

/-- Some entering state in the `n` indices from `i` has no exiting state after it among them. -/
def EntersUnclosed (states : List TimingState) (i n : Nat) : Prop :=
  ∃ b, i ≤ b ∧ b < i + n ∧ states.getD b .neutralHold = .enter ∧
    ∀ j, b < j → j < i + n → states.getD j .neutralHold ≠ .exit

theorem noExitFrom_succ {i n : Nat} :
    NoExitFrom states i (n + 1) ↔
      states.getD i .neutralHold ≠ .exit ∧ NoExitFrom states (i + 1) n := by
  constructor
  · intro h
    exact ⟨h i (Nat.le_refl _) (by omega), fun j hj hjn => h j (by omega) (by omega)⟩
  · rintro ⟨hi, h⟩ j hj hjn
    rcases Nat.eq_or_lt_of_le hj with rfl | hlt
    · exact hi
    · exact h j hlt (by omega)

theorem entersUnclosed_succ {i n : Nat} :
    EntersUnclosed states i (n + 1) ↔
      (states.getD i .neutralHold = .enter ∧ NoExitFrom states (i + 1) n) ∨
        EntersUnclosed states (i + 1) n := by
  constructor
  · rintro ⟨b, hib, hbn, hb, hafter⟩
    rcases Nat.eq_or_lt_of_le hib with rfl | hlt
    · exact .inl ⟨hb, fun j hj hjn => hafter j hj (by omega)⟩
    · exact .inr ⟨b, hlt, by omega, hb, fun j hj hjn => hafter j hj (by omega)⟩
  · rintro (⟨hi, h⟩ | ⟨b, hib, hbn, hb, hafter⟩)
    · exact ⟨i, Nat.le_refl _, by omega, hi, fun j hj hjn => h j hj (by omega)⟩
    · exact ⟨b, by omega, by omega, hb, fun j hj hjn => hafter j hj (by omega)⟩

theorem closed_cons_cons_sell (o : Side × Nat) (s : Nat) (rest : List (Side × Nat)) :
    Closed (o :: (.sell, s) :: rest) ↔ Closed rest := by
  cases rest with
  | nil => simp [Closed]
  | cons r rest => simp only [Closed, List.getLast?_cons_cons]

/-- The scan ends holding a position exactly when some entering state is not followed by an
exit: from a flat start directly, and while holding also when nothing exits at all. -/
theorem timingFrom_open (n : Nat) :
    ∀ i, (¬Closed (timingFrom states true i n) ↔ EntersUnclosed states i n) ∧
      ∀ b, (¬Closed ((.buy, b) :: timingFrom states false i n) ↔
        NoExitFrom states i n ∨ EntersUnclosed states i n) := by
  induction n with
  | zero =>
    intro i
    refine ⟨?_, fun b => ?_⟩
    · simp only [timingFrom_zero, EntersUnclosed]
      simp [Closed]
      omega
    · refine iff_of_true (by simp [Closed]) (.inl fun j hj hji => ?_)
      omega
  | succ n ih =>
    intro i
    obtain ⟨ihFlat, ihHeld⟩ := ih (i + 1)
    refine ⟨?_, fun b => ?_⟩
    · by_cases henter : states.getD i .neutralHold = .enter
      · rw [timingFrom_enter n henter, ihHeld i, entersUnclosed_succ]
        simp only [henter, true_and]
      · rw [timingFrom_wait_flat n henter, ihFlat, entersUnclosed_succ]
        simp only [henter, false_and, false_or]
    · by_cases hexit : states.getD i .neutralHold = .exit
      · -- the sale closes the position; what stays open comes after it
        rw [timingFrom_exit n hexit, closed_cons_cons_sell, ihFlat, noExitFrom_succ,
          entersUnclosed_succ]
        simp only [hexit, ne_eq, not_true_eq_false, false_and, false_or, reduceCtorEq]
      · rw [timingFrom_wait_held n hexit, ihHeld b, noExitFrom_succ, entersUnclosed_succ]
        constructor
        · rintro (h | h)
          · exact .inl ⟨hexit, h⟩
          · exact .inr (.inr h)
        · rintro (⟨_, h⟩ | ⟨_, h⟩ | h)
          · exact .inl h
          · exact .inl h
          · exact .inr h

end Scan

/-! ## Market timing over a signal stream -/

section Timing

variable {signals : List Bool} {start stop : Nat}

theorem getD_false_eq_false {l : List Bool} {i : Nat} (hi : i < l.length) :
    l.getD i false = false ↔ l[i]? = some false := by
  rw [List.getD_eq_getElem?_getD, List.getElem?_eq_getElem hi]
  simp

/-- Before the last index the timing input is the signal itself. -/
theorem timingInput_of_lt {j : Nat} (hj : j + 1 < signals.length) :
    timingInput signals j = signals.getD j false := by
  have : j ≠ signals.length - 1 := by omega
  simp [timingInput, this]

/-- From a set input at `b` on, the input stays set up to `stop` as long as no state after `b`
is an exit: the first fall would be one. -/
theorem timingInput_of_no_exit {b : Nat} (hstop : stop ≤ signals.length)
    (hb : timingInput signals b = true)
    (hafter : ∀ j, b < j → j < stop → (timingStates signals).getD j .neutralHold ≠ .exit) :
    ∀ j, b ≤ j → j < stop → timingInput signals j = true := by
  intro j hj
  induction j, hj using Nat.le_induction with
  | base => exact fun _ => hb
  | succ j hbj ih =>
    intro hjs
    have hnot := hafter (j + 1) (by omega) hjs
    rw [ne_eq, timingStates_eq_exit (by omega)] at hnot
    cases hin : timingInput signals (j + 1)
    · exact absurd ⟨hin, Nat.zero_lt_succ _, ih (by omega)⟩ hnot
    · rfl

/-- Market-timing orders over a range that ends by the last index plus one form a schedule
whose purchases are set signals of the range before the last index. -/
theorem timingOrders_schedule (hstop : stop ≤ signals.length) :
    Schedule (fun b => b < stop ∧ signals[b]? = some true ∧ b + 1 < signals.length)
      (signals.length - 1) start (timingOrders (timingStates signals) start stop) := by
  rw [timingOrders_eq_timingFrom]
  rcases Nat.lt_or_ge stop start with hlt | hle
  · rw [show stop - start = 0 by omega, timingFrom_zero]
    exact .nil _
  · have hent : ∀ j, j < stop → (timingStates signals).getD j .neutralHold = .enter →
        j < stop ∧ signals[j]? = some true ∧ j + 1 < signals.length := by
      intro j hj henter
      exact ⟨hj, entry_of_timingStates_eq_enter (by omega) henter⟩
    exact ((timingFrom_schedule hent (by omega) (stop - start)) start (by omega)).1 start
      (Nat.le_refl _)

/-- Where some entering state of the range is followed by no exit in it, the signals are set
from its index to the end of the range, and the range stops before the last index. -/
theorem entersUnclosed_timingStates_iff (hstart : start ≤ stop) (hstop : stop ≤ signals.length) :
    EntersUnclosed (timingStates signals) start (stop - start) ↔
      stop < signals.length ∧ ∃ b, start ≤ b ∧ b < stop ∧ (b = 0 ∨ signals[b - 1]? = some false) ∧
        ∀ j, b ≤ j → j < stop → signals[j]? = some true := by
  simp only [EntersUnclosed, show start + (stop - start) = stop by omega]
  constructor
  · rintro ⟨b, hb, hbs, henter, hafter⟩
    obtain ⟨hinb, hrise⟩ := (timingStates_eq_enter (by omega)).mp henter
    have hrun := timingInput_of_no_exit hstop hinb hafter
    have hlast : stop < signals.length := by
      have hin := hrun (stop - 1) (by omega) (by omega)
      simp only [timingInput, Bool.and_eq_true, bne_iff_ne, ne_eq] at hin
      omega
    refine ⟨hlast, b, hb, hbs, ?_, fun j hj hjs => ?_⟩
    · rcases hrise with h0 | hfall
      · exact .inl h0
      · right
        rw [timingInput_of_lt (by omega)] at hfall
        exact (getD_false_eq_false (by omega)).mp hfall
    · have := hrun j hj hjs
      rw [timingInput_of_lt (by omega)] at this
      exact getD_false_eq_true.mp this
  · rintro ⟨hlast, b, hb, hbs, hrise, hset⟩
    have hin : ∀ j, b ≤ j → j < stop → timingInput signals j = true := by
      intro j hj hjs
      rw [timingInput_of_lt (by omega)]
      exact getD_false_eq_true.mpr (hset j hj hjs)
    refine ⟨b, hb, hbs, (timingStates_eq_enter (by omega)).mpr ⟨hin b (Nat.le_refl _) hbs, ?_⟩,
      fun j hbj hjs hexit => ?_⟩
    · rcases hrise with h0 | hfall
      · exact .inl h0
      · right
        rw [timingInput_of_lt (by omega)]
        exact (getD_false_eq_false (by omega)).mpr hfall
    · have := ((timingStates_eq_exit (by omega)).mp hexit).1
      rw [hin j (by omega) hjs] at this
      exact Bool.noConfusion this

/-- Market-timing orders end holding a position exactly when the range stops before the last
index and its last run of set signals starts inside it. -/
theorem timingOrders_open_iff (hstart : start ≤ stop) (hstop : stop ≤ signals.length) :
    ¬Closed (timingOrders (timingStates signals) start stop) ↔
      stop < signals.length ∧ ∃ b, start ≤ b ∧ b < stop ∧ (b = 0 ∨ signals[b - 1]? = some false) ∧
        ∀ j, b ≤ j → j < stop → signals[j]? = some true := by
  rw [timingOrders_eq_timingFrom, ((timingFrom_open (stop - start)) start).1]
  exact entersUnclosed_timingStates_iff hstart hstop

end Timing

end Trading
end Backtest
