import Mathlib
import Backtest.Proofs.Trading.Policies
/-!
# Proofs.Trading.Edges — market timing acts on the edges of its signal

Market timing reads a signal stream with its last signal forced off (`closingSignals`), so the
stream it reads always ends unset. Its states are a function of that stream's edges: a
position is held exactly where the stream is set, the state enters exactly at a rising edge
and exits exactly at a falling edge. The orders over a range `[a, b)` are then the edges
inside it, in index order: a purchase at each rising edge and a sale at each falling edge,
except a falling edge met before any rising edge of the range, which has nothing to close.

* `risesAt`, `fallsAt` — the edges of a stream, which reads unset before its start and past
  its end;
* `edgeOrders` — the orders the edges of a range call for;
* `FollowsEdges` — a list of states that enters at the rising edges and exits at the falling
  edges of a stream, and `timingOrders_eq_edgeOrders`, that the market-timing scan over such
  states emits exactly the orders of the edges;
* `timingStates_edges` — the states of a signal stream follow the edges of its closing
  stream, and over the full range the orders are non-empty exactly when some signal before
  the last is set, and end with a sale.
-/

namespace Backtest
namespace Trading

/-! ## Edges of a stream -/

/-- The signals as market timing reads them: the last one forced off. -/
def closingSignals (s : List Bool) : List Bool :=
  s.set (s.length - 1) false

/-- `s` rises at `i`: set there, and unset just before or at the start. -/
def risesAt (s : List Bool) (i : Nat) : Bool :=
  s.getD i false && (i == 0 || !s.getD (i - 1) false)

/-- `s` falls at `i`: unset there and set just before. -/
def fallsAt (s : List Bool) (i : Nat) : Bool :=
  !s.getD i false && (i != 0 && s.getD (i - 1) false)

/-- Whether `s` rises somewhere in `[a, i)`. -/
def roseWithin (s : List Bool) (a i : Nat) : Bool :=
  (List.range' a (i - a)).any (risesAt s)

/-- The order index `i` calls for in a range starting at `a`: a purchase at a rising edge, a
sale at a falling edge once the stream has risen inside the range. -/
def edgeOrder (s : List Bool) (a i : Nat) : Option (Side × Nat) :=
  if risesAt s i then some (.buy, i)
  else if fallsAt s i && roseWithin s a i then some (.sell, i)
  else none

/-- The orders the edges of `s` in `[a, b)` call for, in index order. -/
def edgeOrders (s : List Bool) (a b : Nat) : List (Side × Nat) :=
  (List.range' a (b - a)).filterMap (edgeOrder s a)

example : edgeOrders [false, true, true, false, false, true, true, false] 0 8 =
    [(.buy, 1), (.sell, 3), (.buy, 5), (.sell, 7)] := by decide

/-- A sale at the first falling edge is dropped when the range starts inside a run. -/
example : edgeOrders [true, true, false, true, false] 1 5 = [(.buy, 3), (.sell, 4)] := by decide

section Edges

variable {s : List Bool} {a i : Nat}

theorem roseWithin_self (s : List Bool) (a : Nat) : roseWithin s a a = false := by
  simp [roseWithin]

/-- Moving one index on adds that index's edge to what the range has seen. -/
theorem roseWithin_succ (h : a ≤ i) :
    roseWithin s a (i + 1) = (roseWithin s a i || risesAt s i) := by
  unfold roseWithin
  rw [show i + 1 - a = i - a + 1 by omega, List.range'_concat, List.any_append]
  simp [show a + (i - a) = i by omega]

theorem exists_of_roseWithin (h : roseWithin s a i = true) :
    ∃ r, a ≤ r ∧ r < i ∧ risesAt s r = true := by
  obtain ⟨r, hr, hrise⟩ := List.any_eq_true.mp h
  rw [List.mem_range'_1] at hr
  exact ⟨r, hr.1, by omega, hrise⟩

theorem getD_of_risesAt (h : risesAt s i = true) : s.getD i false = true := by
  simp only [risesAt, Bool.and_eq_true] at h
  exact h.1

theorem getD_of_fallsAt (h : fallsAt s i = true) :
    s.getD i false = false ∧ s.getD (i - 1) false = true := by
  simp only [fallsAt, Bool.and_eq_true, Bool.not_eq_true'] at h
  exact ⟨h.1, h.2.2⟩

/-- Where a stream neither rises nor falls it keeps its value from the index before. -/
theorem getD_of_no_edge (hr : risesAt s i = false) (hf : fallsAt s i = false) :
    s.getD i false = (i != 0 && s.getD (i - 1) false) := by
  simp only [risesAt, fallsAt] at hr hf
  cases h : s.getD i false <;> cases h' : s.getD (i - 1) false <;> cases hi : (i == 0) <;>
    simp_all

/-- A set index has a rising edge at or before it. -/
theorem exists_risesAt_le (h : s.getD i false = true) : ∃ r ≤ i, risesAt s r = true := by
  induction i with
  | zero => exact ⟨0, le_rfl, by simp only [risesAt, h, beq_self_eq_true, Bool.true_or,
      Bool.and_self]⟩
  | succ i ih =>
    -- either the stream was already set one index earlier, or it rises here
    cases hprev : s.getD i false
    · refine ⟨i + 1, le_rfl, ?_⟩
      simp only [risesAt, h, Nat.add_sub_cancel, hprev, Bool.not_false, Bool.or_true,
        Bool.and_self]
    · obtain ⟨r, hr, hrise⟩ := ih hprev
      exact ⟨r, by omega, hrise⟩

end Edges

/-! ## The market-timing scan over edge-following states -/

/-- A list of states follows the edges of `s`: it enters exactly where `s` rises and exits
exactly where `s` falls. -/
structure FollowsEdges (states : List TimingState) (s : List Bool) : Prop where
  enter : ∀ j, states.getD j .neutralHold = .enter ↔ risesAt s j = true
  exit : ∀ j, states.getD j .neutralHold = .exit ↔ fallsAt s j = true

/-- Whether a position bought inside a range starting at `a` is held when index `i` comes: the
stream rose inside the range and was still set at the index before. -/
def heldAt (s : List Bool) (a i : Nat) : Bool :=
  roseWithin s a i && s.getD (i - 1) false

section Scan

variable {states : List TimingState} {s : List Bool} {a : Nat}

/-- Nothing is held at a rising edge: the stream was unset just before, or the range has not
started. -/
theorem heldAt_of_risesAt {i : Nat} (h : risesAt s i = true) : heldAt s a i = false := by
  simp only [risesAt, Bool.and_eq_true, Bool.or_eq_true, beq_iff_eq, Bool.not_eq_true'] at h
  rcases h.2 with rfl | hprev
  · simp [heldAt, roseWithin]
  · simp only [heldAt, hprev, Bool.and_false]

/-- One index on, a position is held after a rise, not after a fall, and otherwise as before. -/
theorem heldAt_succ {i : Nat} (hi : a ≤ i) :
    heldAt s a (i + 1) = (risesAt s i || (!fallsAt s i && heldAt s a i)) := by
  have hnext : heldAt s a (i + 1) = (roseWithin s a (i + 1) && s.getD i false) := rfl
  cases hrise : risesAt s i
  · cases hfall : fallsAt s i
    · -- no edge: the stream is as it was, and no rise joins the range
      rw [hnext, roseWithin_succ hi, hrise, Bool.or_false, getD_of_no_edge hrise hfall]
      cases hi0 : (i != 0)
      · -- at the start of the stream nothing has been seen
        have : i = 0 := by simpa using hi0
        subst this
        simp [heldAt, roseWithin]
      · simp [heldAt]
    · rw [hnext, (getD_of_fallsAt hfall).1, Bool.and_false]
      rfl
  · rw [hnext, roseWithin_succ hi, hrise, getD_of_risesAt hrise, Bool.or_true, Bool.and_self]
    rfl

/-- The scan from `i`, flat exactly when nothing is held there, emits the orders the edges of
`[i, i + n)` call for. -/
theorem timingFrom_heldAt (h : FollowsEdges states s) (n : Nat) :
    ∀ i, a ≤ i → timingFrom states (!heldAt s a i) i n =
      (List.range' i n).filterMap (edgeOrder s a) := by
  induction n with
  | zero => intro i _; simp
  | succ n ih =>
    intro i hi
    have ih' := ih (i + 1) (by omega)
    rw [heldAt_succ hi] at ih'
    rw [List.range'_succ, List.filterMap_cons]
    by_cases hrise : risesAt s i = true
    · -- a rising edge: the scan is flat, buys, and holds from here on
      rw [hrise, Bool.true_or, Bool.not_true] at ih'
      rw [heldAt_of_risesAt hrise, Bool.not_false, timingFrom_enter n ((h.enter i).mpr hrise), ih']
      simp [edgeOrder, hrise]
    · have hrise' : risesAt s i = false := by simpa using hrise
      have hnotEnter : states.getD i .neutralHold ≠ .enter := fun he => hrise ((h.enter i).mp he)
      by_cases hfall : fallsAt s i = true
      · -- a falling edge: it sells exactly when the range has seen a rise
        have hprev := (getD_of_fallsAt hfall).2
        simp only [hrise', hfall, Bool.false_or, Bool.not_true, Bool.false_and,
          Bool.not_false] at ih'
        cases hrose : roseWithin s a i
        · have hflat : heldAt s a i = false := by simp only [heldAt, hrose, Bool.false_and]
          rw [hflat, Bool.not_false, timingFrom_wait_flat n hnotEnter, ih']
          simp [edgeOrder, hrise', hrose]
        · have hheld : heldAt s a i = true := by simp only [heldAt, hrose, hprev, Bool.and_self]
          rw [hheld, Bool.not_true, timingFrom_exit n ((h.exit i).mpr hfall), ih']
          simp [edgeOrder, hrise', hfall, hrose]
      · -- no edge: the scan moves on, and what is held does not change
        have hfall' : fallsAt s i = false := by simpa using hfall
        have hnotExit : states.getD i .neutralHold ≠ .exit := fun he => hfall ((h.exit i).mp he)
        simp only [hrise', hfall', Bool.false_or, Bool.not_false, Bool.true_and] at ih'
        have hwait : timingFrom states (!heldAt s a i) i (n + 1) =
            timingFrom states (!heldAt s a i) (i + 1) n := by
          cases heldAt s a i
          · exact timingFrom_wait_flat n hnotEnter
          · exact timingFrom_wait_held n hnotExit
        rw [hwait, ih']
        simp [edgeOrder, hrise', hfall']

/-- Over edge-following states, market timing emits exactly the orders of the edges. -/
theorem timingOrders_eq_edgeOrders (h : FollowsEdges states s) (a b : Nat) :
    timingOrders states a b = edgeOrders s a b := by
  have hstart : (!heldAt s a a) = true := by simp [heldAt, roseWithin_self]
  rw [timingOrders_eq_timingFrom, ← hstart, timingFrom_heldAt h _ a le_rfl]
  rfl

end Scan

/-- The orders of a range are non-empty exactly when the stream rises inside it: a sale needs
a rise before it. -/
theorem edgeOrders_ne_nil_iff {s : List Bool} {a b : Nat} :
    edgeOrders s a b ≠ [] ↔ ∃ r, a ≤ r ∧ r < b ∧ risesAt s r = true := by
  simp only [edgeOrders, ne_eq, List.filterMap_eq_nil_iff, not_forall, List.mem_range'_1]
  constructor
  · rintro ⟨i, hi, hsome⟩
    unfold edgeOrder at hsome
    by_cases hrise : risesAt s i = true
    · exact ⟨i, hi.1, by omega, hrise⟩
    · by_cases hrose : roseWithin s a i = true
      · obtain ⟨r, har, hri, hr⟩ := exists_of_roseWithin hrose
        exact ⟨r, har, by omega, hr⟩
      · simp_all
  · rintro ⟨r, har, hrb, hr⟩
    exact ⟨r, ⟨har, by omega⟩, by simp [edgeOrder, hr]⟩

/-! ## The states of a signal stream -/

section States

variable {s : List Bool}

/-- The closing stream reads, at every index, the input the timing states read there. -/
theorem getD_closingSignals (s : List Bool) (j : Nat) :
    (closingSignals s).getD j false = timingInput s j := by
  simp only [closingSignals, timingInput, List.getD_eq_getElem?_getD, List.getElem?_set]
  by_cases hj : s.length - 1 = j
  · subst hj
    by_cases hl : s.length - 1 < s.length <;> simp [hl]
  · simp [hj, Ne.symm hj]

/-- Past its end the closing stream is unset, and so is its last index. -/
theorem getD_closingSignals_of_le {j : Nat} (hj : s.length ≤ j + 1) :
    (closingSignals s).getD j false = false := by
  rw [getD_closingSignals]
  simp only [timingInput, Bool.and_eq_false_iff, bne_eq_false_iff_eq]
  by_cases hlt : j < s.length
  · exact .inr (by omega)
  · left
    rw [List.getD_eq_getElem?_getD, List.getElem?_eq_none (by omega), Option.getD_none]

theorem getD_timingStates_of_le {j : Nat} (hj : s.length ≤ j) :
    (timingStates s).getD j .neutralHold = .neutralHold := by
  rw [List.getD_eq_getElem?_getD, List.getElem?_eq_none (by simpa using hj), Option.getD_none]

/-- The timing states of a stream follow the edges of its closing stream. -/
theorem followsEdges_timingStates (s : List Bool) :
    FollowsEdges (timingStates s) (closingSignals s) := by
  constructor
  · intro j
    by_cases hj : j < s.length
    · rw [timingStates_eq_enter hj]
      simp only [risesAt, getD_closingSignals, Bool.and_eq_true, Bool.or_eq_true, beq_iff_eq,
        Bool.not_eq_true']
    · -- past the end there is no state, and the closing stream is unset
      rw [getD_timingStates_of_le (by omega), risesAt, getD_closingSignals_of_le (by omega)]
      simp
  · intro j
    by_cases hj : j < s.length
    · rw [timingStates_eq_exit hj]
      simp only [fallsAt, getD_closingSignals, Bool.and_eq_true, Bool.not_eq_true', bne_iff_ne,
        ne_eq, Nat.pos_iff_ne_zero]
    · rw [getD_timingStates_of_le (by omega), fallsAt]
      cases j with
      | zero => simp
      | succ j =>
        rw [Nat.add_sub_cancel, getD_closingSignals_of_le (j := j) (by omega)]
        simp

/-- A timing state holds a position exactly where the closing stream is set. -/
theorem timingStates_mem_holding_iff (j : Nat) :
    (timingStates s).getD j .neutralHold ∈ [TimingState.enter, .enterHold] ↔
      (closingSignals s).getD j false = true := by
  by_cases hj : j < s.length
  · rw [getD_closingSignals, ← holds_timingStates hj .neutralHold]
    cases (timingStates s).getD j .neutralHold <;> simp [TimingState.holds]
  · rw [getD_timingStates_of_le (by omega), getD_closingSignals_of_le (by omega)]
    simp

/-- Some index of the closing stream is set exactly when a signal before the last is set. -/
theorem exists_closingSignals_iff :
    (∃ i, i < s.length ∧ (closingSignals s).getD i false = true) ↔
      ∃ i, i + 1 < s.length ∧ s[i]? = some true := by
  simp only [getD_closingSignals, timingInput, Bool.and_eq_true, bne_iff_ne, ne_eq,
    getD_false_eq_true]
  constructor
  · rintro ⟨i, hi, hset, hlast⟩
    exact ⟨i, by omega, hset⟩
  · rintro ⟨i, hi, hset⟩
    exact ⟨i, by omega, hset, by omega⟩

end States

/-- Market timing is an edge detector. For every signal stream `s`, with `s'` the stream with
its last signal forced off: the state at each index holds a position exactly where `s'` is
set, enters exactly where `s'` rises and exits exactly where `s'` falls; over every range the
orders are a purchase at each rising edge of `s'` and a sale at each falling edge, in index
order, less a falling edge before the range's first rise; and over the full range the orders
are non-empty exactly when a signal before the last is set, and they end with a sale. -/
theorem timingStates_edges (s : List Bool) :
    (∀ i, i < s.length →
      ((timingStates s).getD i .neutralHold ∈ [TimingState.enter, .enterHold] ↔
          (closingSignals s).getD i false = true) ∧
        ((timingStates s).getD i .neutralHold = .enter ↔ risesAt (closingSignals s) i = true) ∧
        ((timingStates s).getD i .neutralHold = .exit ↔ fallsAt (closingSignals s) i = true)) ∧
      (∀ a b, timingOrders (timingStates s) a b = edgeOrders (closingSignals s) a b) ∧
      (timingOrders (timingStates s) 0 s.length ≠ [] ↔
        ∃ i, i + 1 < s.length ∧ s[i]? = some true) ∧
      Closed (timingOrders (timingStates s) 0 s.length) := by
  have hfollow := followsEdges_timingStates s
  refine ⟨fun i _ => ⟨timingStates_mem_holding_iff i, hfollow.enter i, hfollow.exit i⟩,
    timingOrders_eq_edgeOrders hfollow, ?_, ?_⟩
  · -- non-empty iff the closing stream rises, iff it is set somewhere
    rw [timingOrders_eq_edgeOrders hfollow, edgeOrders_ne_nil_iff, ← exists_closingSignals_iff]
    constructor
    · rintro ⟨r, -, hr, hrise⟩
      exact ⟨r, by omega, by simp_all [risesAt]⟩
    · rintro ⟨i, hi, hset⟩
      obtain ⟨r, hri, hrise⟩ := exists_risesAt_le hset
      exact ⟨r, Nat.zero_le _, by omega, hrise⟩
  · -- the full range reaches the last index, so no position stays open
    intro o ho
    by_contra hsell
    have hopen : ¬Closed (timingOrders (timingStates s) 0 s.length) :=
      fun hc => hsell (hc o ho)
    have := (timingOrders_open_iff (Nat.zero_le _) le_rfl).mp hopen
    omega

end Trading
end Backtest
