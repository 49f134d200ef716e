import Mathlib
import Backtest.Trading.Backtest
import Backtest.Trading.Returns
/-!
# Proofs.Trading.Schedule — the shape of a backtest's orders

Every exit policy emits its orders as a *schedule*: purchases and sales alternate, starting
with a purchase; every purchase stands at an admissible entry index no earlier than the index
allowed for it; every sale lies between its purchase and the last index; and the next
purchase comes strictly after the previous one and no earlier than the sale between them.
A schedule may end with one purchase left open.

* `Schedule entry last lo orders` — the inductive description above, `lo` being the first
  index the next purchase may take;
* `Schedule.side_getElem`, `Schedule.buy_getElem`, `Schedule.sell_getElem`,
  `Schedule.buys_increase` — the same facts read off order by order, by position;
* `Schedule.returnsFrom_ok` — returns are measured without an ordering failure, one per
  round trip;
* `Schedule.closed_iff_even` — a schedule ends without an open position exactly when it has
  an even number of orders.
-/

namespace Backtest
namespace Trading

/-- Alternating orders: `lo` is the least index of the next purchase, `entry` what a purchase
index must satisfy and `last` the largest index of a sale. -/
inductive Schedule (entry : Nat → Prop) (last : Nat) : Nat → List (Side × Nat) → Prop where
  | nil (lo : Nat) : Schedule entry last lo []
  | hold {lo b : Nat} : lo ≤ b → entry b → Schedule entry last lo [(.buy, b)]
  | trip {lo b s : Nat} {rest : List (Side × Nat)} : lo ≤ b → entry b → b ≤ s → s ≤ last →
      Schedule entry last (max (b + 1) s) rest →
      Schedule entry last lo ((.buy, b) :: (.sell, s) :: rest)

/-- Orders that end without an open purchase. -/
def Closed (orders : List (Side × Nat)) : Prop :=
  ∀ o, orders.getLast? = some o → o.1 = .sell

@[simp] theorem tripOrders_nil : tripOrders [] = [] := rfl

@[simp] theorem tripOrders_cons (b s : Nat) (trips : List (Nat × Nat)) :
    tripOrders ((b, s) :: trips) = (.buy, b) :: (.sell, s) :: tripOrders trips := rfl

theorem length_tripOrders (trips : List (Nat × Nat)) :
    (tripOrders trips).length = 2 * trips.length := by
  induction trips with
  | nil => rfl
  | cons t trips ih =>
    obtain ⟨b, s⟩ := t
    simp only [tripOrders_cons, List.length_cons, ih]
    omega

/-- Orders made of round trips are closed. -/
theorem tripOrders_closed (trips : List (Nat × Nat)) : Closed (tripOrders trips) := by
  induction trips with
  | nil => simp [Closed]
  | cons t trips ih =>
    obtain ⟨b, s⟩ := t
    cases trips with
    | nil => simp [Closed]
    | cons t' trips' =>
      obtain ⟨b', s'⟩ := t'
      -- a later round trip exists, so the last order is the last of the rest
      intro o ho
      apply ih o
      simpa [List.getLast?_cons_cons] using ho

/-- Round trips yield one return each, whatever the executions carry besides their sides. -/
theorem tripOrders_returns (trips : List (Nat × Nat)) (f : Side × Nat → Execution)
    (hf : ∀ o, (f o).side = o.1) (kind : ReturnKind) (cost : Float) (i : Nat) :
    ∃ rs, returnsFrom kind cost i none ((tripOrders trips).map f) = .ok rs ∧
      rs.length = trips.length := by
  induction trips generalizing i with
  | nil => exact ⟨[], rfl, rfl⟩
  | cons t trips ih =>
    obtain ⟨b, s⟩ := t
    obtain ⟨rs, hrs, hlen⟩ := ih (i + 2)
    refine ⟨kind.apply (f (.sell, s)).price (f (.buy, b)).price cost :: rs, ?_, ?_⟩
    · simp [returnsFrom, hf, hrs, Except.map]
    · simp [hlen]

namespace Schedule

variable {entry entry' : Nat → Prop} {last lo : Nat} {orders : List (Side × Nat)}

/-- A schedule allowed to start at `lo` may start at any earlier bound. -/
theorem mono (h : Schedule entry last lo orders) {lo' : Nat} (hle : lo' ≤ lo) :
    Schedule entry last lo' orders := by
  cases h with
  | nil => exact .nil lo'
  | hold hb he => exact .hold (Nat.le_trans hle hb) he
  | trip hb he hbs hs hrest => exact .trip (Nat.le_trans hle hb) he hbs hs hrest

/-- A weaker entry condition keeps a schedule. -/
theorem weaken (h : Schedule entry last lo orders) (hw : ∀ b, entry b → entry' b) :
    Schedule entry' last lo orders := by
  induction h with
  | nil lo => exact .nil lo
  | hold hb he => exact .hold hb (hw _ he)
  | trip hb he hbs hs _ ih => exact .trip hb (hw _ he) hbs hs ih

/-- Every purchase of a schedule starting at `lo` is at `lo` or later. -/
theorem lo_le_of_mem (h : Schedule entry last lo orders) {o : Side × Nat} (ho : o ∈ orders) :
    lo ≤ o.2 := by
  induction h with
  | nil => simp at ho
  | hold hb _ =>
    simp only [List.mem_singleton] at ho
    subst ho
    exact hb
  | trip hb _ hbs _ _ ih =>
    simp only [List.mem_cons] at ho
    rcases ho with rfl | rfl | ho
    · exact hb
    · exact Nat.le_trans hb hbs
    · have := ih ho
      omega

/-- With admissible entries at or before `last`, every order of a schedule is at or before
`last`. -/
theorem le_last_of_mem (h : Schedule entry last lo orders) (hentry : ∀ b, entry b → b ≤ last)
    {o : Side × Nat} (ho : o ∈ orders) : o.2 ≤ last := by
  induction h with
  | nil => simp at ho
  | hold _ he =>
    simp only [List.mem_singleton] at ho
    subst ho
    exact hentry _ he
  | trip _ he _ hs _ ih =>
    simp only [List.mem_cons] at ho
    rcases ho with rfl | rfl | ho
    · exact hentry _ he
    · exact hs
    · exact ih ho

/-! ## Order by order -/

/-- Orders at even positions are purchases and orders at odd positions sales. -/
theorem side_getElem (h : Schedule entry last lo orders) (k : Nat) (hk : k < orders.length) :
    orders[k].1 = if k % 2 = 0 then .buy else .sell := by
  induction h generalizing k with
  | nil => simp at hk
  | hold =>
    obtain rfl : k = 0 := by simpa using hk
    rfl
  | trip _ _ _ _ _ ih =>
    rcases k with _ | _ | k
    · rfl
    · rfl
    · simp only [List.getElem_cons_succ]
      rw [ih k (by simpa using hk)]
      have hmod : (k + 1 + 1) % 2 = k % 2 := by omega
      rw [hmod]

/-- A purchase stands at an admissible index no earlier than the schedule's bound. -/
theorem buy_getElem (h : Schedule entry last lo orders) (k : Nat) (hk : k < orders.length)
    (heven : k % 2 = 0) : lo ≤ orders[k].2 ∧ entry orders[k].2 := by
  induction h generalizing k with
  | nil => simp at hk
  | hold hb he =>
    obtain rfl : k = 0 := by simpa using hk
    exact ⟨hb, he⟩
  | trip hb he _ _ _ ih =>
    rcases k with _ | _ | k
    · exact ⟨hb, he⟩
    · simp at heven
    · simp only [List.getElem_cons_succ]
      have := ih k (by simpa using hk) (by omega)
      exact ⟨by omega, this.2⟩

/-- A sale lies between its purchase and the last index, and no later than the next
purchase. -/
theorem sell_getElem (h : Schedule entry last lo orders) (k : Nat) (hk : k < orders.length)
    (hodd : k % 2 = 1) :
    orders[k - 1].2 ≤ orders[k].2 ∧ orders[k].2 ≤ last ∧
      ∀ hnext : k + 1 < orders.length, orders[k].2 ≤ orders[k + 1].2 := by
  induction h generalizing k with
  | nil => simp at hk
  | hold =>
    obtain rfl : k = 0 := by simpa using hk
    simp at hodd
  | @trip _ b s rest _ _ hbs hs hrest ih =>
    rcases k with _ | _ | k
    · simp at hodd
    · refine ⟨hbs, hs, fun hnext => ?_⟩
      -- the next order is the first purchase of the rest, bounded below by the sale
      have h0 : 0 < rest.length := by simpa using hnext
      have := hrest.lo_le_of_mem (List.getElem_mem h0)
      simp only [List.getElem_cons_succ, List.getElem_cons_zero]
      omega
    · have hk' : k < rest.length := by simpa using hk
      obtain ⟨h1, h2, h3⟩ := ih k hk' (by omega)
      have hk1 : 1 ≤ k := by omega
      refine ⟨?_, h2, fun hnext => h3 (by simpa using hnext)⟩
      obtain ⟨j, rfl⟩ : ∃ j, k = j + 1 := ⟨k - 1, by omega⟩
      simpa using h1

/-- Purchases come at strictly increasing indices. -/
theorem buys_increase (h : Schedule entry last lo orders) (k k' : Nat) (hkk : k < k')
    (hk' : k' < orders.length) (hk : k % 2 = 0) (hk'' : k' % 2 = 0) :
    orders[k].2 < orders[k'].2 := by
  induction h generalizing k k' with
  | nil => simp at hk'
  | hold => simp at hk'; omega
  | @trip _ b s rest _ _ _ _ hrest ih =>
    rcases k with _ | _ | k
    · -- a later purchase belongs to the rest, which starts after `b`
      obtain ⟨j, rfl⟩ : ∃ j, k' = j + 2 := ⟨k' - 2, by omega⟩
      have hj : j < rest.length := by simpa using hk'
      have := hrest.lo_le_of_mem (List.getElem_mem hj)
      simp only [List.getElem_cons_succ, List.getElem_cons_zero]
      omega
    · simp at hk
    · obtain ⟨j, rfl⟩ : ∃ j, k' = j + 2 := ⟨k' - 2, by omega⟩
      simp only [List.getElem_cons_succ]
      exact ih k j (by omega) (by simpa using hk') (by omega) (by omega)

/-! ## Returns and open positions -/

/-- Returns of a schedule are measured without an ordering failure, one per round trip,
whatever the executions carry besides their sides. -/
theorem returnsFrom_ok (h : Schedule entry last lo orders) (f : Side × Nat → Execution)
    (hf : ∀ o, (f o).side = o.1) (kind : ReturnKind) (cost : Float) (i : Nat) :
    ∃ rs, returnsFrom kind cost i none (orders.map f) = .ok rs ∧
      rs.length = orders.length / 2 := by
  induction h generalizing i with
  | nil => exact ⟨[], rfl, rfl⟩
  | @hold _ b _ _ =>
    refine ⟨[], ?_, by simp⟩
    simp [returnsFrom, hf]
  | @trip _ b s rest _ _ _ _ _ ih =>
    obtain ⟨rs, hrs, hlen⟩ := ih (i + 2)
    refine ⟨kind.apply (f (.sell, s)).price (f (.buy, b)).price cost :: rs, ?_, ?_⟩
    · simp [returnsFrom, hf, hrs, Except.map]
    · simp only [List.length_cons, hlen]
      omega

/-- A schedule is closed exactly when it has an even number of orders. -/
theorem closed_iff_even (h : Schedule entry last lo orders) :
    Closed orders ↔ orders.length % 2 = 0 := by
  induction h with
  | nil => simp [Closed]
  | hold => simp [Closed]
  | @trip _ b s rest _ _ _ _ _ ih =>
    cases rest with
    | nil => simp [Closed]
    | cons o rest =>
      have hclosed : Closed ((.buy, b) :: (.sell, s) :: o :: rest) ↔ Closed (o :: rest) := by
        simp only [Closed, List.getLast?_cons_cons]
      rw [hclosed, ih]
      simp only [List.length_cons]
      omega

end Schedule

end Trading
end Backtest
