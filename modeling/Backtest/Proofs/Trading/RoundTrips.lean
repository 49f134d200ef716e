import Mathlib
import Backtest.Trading.Returns
import Backtest.Proofs.Data.Keyed
/-!
# Proofs.Trading.RoundTrips — returns are measured exactly on alternating executions

Returns are measured over executions that alternate purchase, sale, purchase, … from the first
one on: each sale closes the purchase just before it and gives one return, and a purchase left
over at the end gives none. Anything else fails at the first execution out of turn, naming the
side it should have had and the side it has.

* `expectedSide`, `Alternating`, `FirstBreak` — the alternation and the first position where it
  fails;
* `pairedReturns` — the return of each pair `(xs[2j], xs[2j+1])`, with its length and entries;
* `returnsFrom_of_alternating`, `returnsFrom_of_firstBreak` — the two outcomes of the loop, by
  recursion two executions at a time;
* `mapM_eq_ok_iff`, `mapM_eq_error_iff` — a traversal in `Except` succeeds entry by entry, and
  otherwise fails with the failure of the first entry that fails;
* `returns_alternation` — the whole statement, for one instrument and for every instrument.
-/

namespace Backtest
namespace Trading

/-! ## Alternation -/

/-- The side the execution at position `i` must have: purchases at even positions, sales at odd
ones. -/
def expectedSide (i : Nat) : Side := if i % 2 = 0 then .buy else .sell

@[simp] theorem expectedSide_zero : expectedSide 0 = .buy := rfl

@[simp] theorem expectedSide_one : expectedSide 1 = .sell := rfl

@[simp] theorem expectedSide_add_two (i : Nat) : expectedSide (i + 2) = expectedSide i := by
  simp [expectedSide]

/-- Executions alternate purchase, sale, purchase, … from the first on. -/
def Alternating (xs : List Execution) : Prop :=
  ∀ i (h : i < xs.length), xs[i].side = expectedSide i

/-- The executions before position `i` alternate, and the one at `i` is on the wrong side. -/
def FirstBreak (xs : List Execution) (i : Nat) (hi : i < xs.length) : Prop :=
  (∀ j (hj : j < i), xs[j].side = expectedSide j) ∧ xs[i].side ≠ expectedSide i

theorem alternating_nil : Alternating [] := by
  intro i h
  simp at h

theorem alternating_singleton {b : Execution} : Alternating [b] ↔ b.side = .buy := by
  constructor
  · intro h
    exact h 0 (by simp)
  · intro h i hi
    obtain rfl : i = 0 := by simpa using hi
    exact h

/-- Alternation is read off two executions at a time. -/
theorem alternating_cons_cons {b s : Execution} {rest : List Execution} :
    Alternating (b :: s :: rest) ↔ b.side = .buy ∧ s.side = .sell ∧ Alternating rest := by
  constructor
  · intro h
    refine ⟨h 0 (by simp), h 1 (by simp), fun i hi => ?_⟩
    have hi2 := h (i + 2) (by simp; omega)
    rw [expectedSide_add_two] at hi2
    exact hi2
  · rintro ⟨hb, hs, hrest⟩ i hi
    match i, hi with
    | 0, _ => exact hb
    | 1, _ => exact hs
    | i + 2, hi => simpa using hrest i (by simpa using hi)

/-- Past two executions that alternate, the first break moves back by two. -/
theorem firstBreak_cons_cons {b s : Execution} {rest : List Execution} {i : Nat}
    (hi : i + 2 < (b :: s :: rest).length) :
    FirstBreak (b :: s :: rest) (i + 2) hi ↔
      b.side = .buy ∧ s.side = .sell ∧ FirstBreak rest i (by simpa using hi) := by
  constructor
  · rintro ⟨hbefore, hwrong⟩
    refine ⟨hbefore 0 (by omega), hbefore 1 (by omega), fun j hj => ?_, by simpa using hwrong⟩
    simpa using hbefore (j + 2) (by omega)
  · rintro ⟨hb, hs, hbefore, hwrong⟩
    refine ⟨fun j hj => ?_, by simpa using hwrong⟩
    match j, hj with
    | 0, _ => exact hb
    | 1, _ => exact hs
    | j + 2, hj => simpa using hbefore j (by omega)

/-- Executions that do not alternate break somewhere first. -/
theorem exists_firstBreak {xs : List Execution} (h : ¬ Alternating xs) :
    ∃ i, ∃ hi : i < xs.length, FirstBreak xs i hi := by
  classical
  have hex : ∃ i, ∃ hi : i < xs.length, xs[i].side ≠ expectedSide i := by
    simpa [Alternating] using h
  obtain ⟨hi, hwrong⟩ := Nat.find_spec hex
  refine ⟨Nat.find hex, hi, fun j hj => ?_, hwrong⟩
  -- an earlier position on the wrong side would have been found first
  by_contra hne
  exact Nat.find_min hex hj ⟨_, hne⟩

theorem not_alternating_of_firstBreak {xs : List Execution} {i : Nat} {hi : i < xs.length}
    (h : FirstBreak xs i hi) : ¬ Alternating xs :=
  fun halt => h.2 (halt i hi)

/-- The alternation breaks first at one position only. -/
theorem FirstBreak.unique {xs : List Execution} {i i' : Nat} {hi : i < xs.length}
    {hi' : i' < xs.length} (h : FirstBreak xs i hi) (h' : FirstBreak xs i' hi') : i = i' := by
  rcases Nat.lt_trichotomy i i' with hlt | heq | hgt
  · exact absurd (h'.1 i hlt) h.2
  · exact heq
  · exact absurd (h.1 i' hgt) h'.2

/-! ## The returns of the round trips -/

/-- The return of each pair `(xs[2j], xs[2j+1])`: selling the second after buying the first. An
execution left without a partner gives nothing. -/
def pairedReturns (k : ReturnKind) (cost : Float) : List Execution → List Float
  | b :: s :: rest => k.apply s.price b.price cost :: pairedReturns k cost rest
  | _ => []

section Paired

variable (k : ReturnKind) (cost : Float)

theorem length_pairedReturns :
    ∀ xs : List Execution, (pairedReturns k cost xs).length = xs.length / 2
  | [] => rfl
  | [_] => by simp [pairedReturns]
  | _ :: _ :: rest => by
    simp only [pairedReturns, List.length_cons, length_pairedReturns rest]
    omega

theorem getElem?_pairedReturns :
    ∀ (xs : List Execution) (j : Nat) (hj : 2 * j + 1 < xs.length),
      (pairedReturns k cost xs)[j]? = some (k.apply xs[2 * j + 1].price xs[2 * j].price cost)
  | [], _, hj => absurd hj (by simp)
  | [_], _, hj => absurd hj (by simp)
  | b :: s :: rest, 0, _ => rfl
  | b :: s :: rest, j + 1, hj => by
    have hj' : 2 * j + 1 < rest.length := by simp at hj; omega
    have h := getElem?_pairedReturns rest j hj'
    simp only [pairedReturns, List.getElem?_cons_succ, h]
    congr 3

end Paired

/-! ## The loop over the executions -/

section Loop

variable {k : ReturnKind} {cost : Float}

/-- Alternating executions give the return of every round trip. -/
theorem returnsFrom_of_alternating :
    ∀ {xs : List Execution} (i : Nat), Alternating xs →
      returnsFrom k cost i none xs = .ok (pairedReturns k cost xs)
  | [], _, _ => rfl
  | [b], i, h => by
    simp [returnsFrom, alternating_singleton.mp h, pairedReturns]
  | b :: s :: rest, i, h => by
    obtain ⟨hb, hs, hrest⟩ := alternating_cons_cons.mp h
    simp [returnsFrom, hb, hs, returnsFrom_of_alternating (i + 2) hrest, pairedReturns,
      Except.map]

/-- Executions whose alternation first breaks at `j` fail there, naming the side the execution
should have had and the side it has. -/
theorem returnsFrom_of_firstBreak :
    ∀ {xs : List Execution} (i j : Nat) (hj : j < xs.length), FirstBreak xs j hj →
      returnsFrom k cost i none xs =
        .error (.executionOrder (i + j) (expectedSide j).name xs[j].side.name)
  | [], _, _, hj, _ => absurd hj (by simp)
  | b :: _, i, 0, _, ⟨_, hwrong⟩ => by
    -- the first execution is a sale
    have hb : b.side = .sell := by
      cases hside : b.side
      · exact absurd hside hwrong
      · rfl
    simp [returnsFrom, hb]
  | [_], _, _ + 1, hj, _ => absurd hj (by simp)
  | b :: s :: _, i, 1, _, ⟨hbefore, hwrong⟩ => by
    -- a purchase followed by a second purchase
    have hb : b.side = .buy := hbefore 0 (by omega)
    have hs : s.side = .buy := by
      cases hside : s.side
      · rfl
      · exact absurd hside hwrong
    simp [returnsFrom, hb, hs]
  | b :: s :: rest, i, j + 2, hj, h => by
    obtain ⟨hb, hs, hrest⟩ := (firstBreak_cons_cons hj).mp h
    have hloop := returnsFrom_of_firstBreak (i + 2) j (by simpa using hj) hrest
    simp only [returnsFrom, hb, hs, hloop, Except.map, List.getElem_cons_succ,
      expectedSide_add_two]
    congr 2
    omega

end Loop

/-! ## Traversals in `Except` -/

section Traverse

variable {ε α β : Type} (f : α → Except ε β)

/-- A traversal succeeds exactly when every entry does, with their results in order. -/
theorem mapM_eq_ok_iff :
    ∀ (xs : List α) (ys : List β),
      xs.mapM f = .ok ys ↔ List.Forall₂ (fun x y => f x = .ok y) xs ys
  | [], ys => by cases ys <;> simp [pure, Except.pure]
  | x :: xs, ys => by
    rw [List.mapM_cons]
    cases hx : f x with
    | error e => cases ys <;> simp [bind, Except.bind, hx]
    | ok y =>
      cases hxs : xs.mapM f with
      | error e =>
        cases ys <;> simp [bind, Except.bind, ← mapM_eq_ok_iff xs, hxs, hx]
      | ok ys' =>
        cases ys <;> simp [bind, Except.bind, pure, Except.pure, ← mapM_eq_ok_iff xs, hxs, hx]

/-- Every entry of a successful traversal succeeds. -/
theorem exists_ok_of_mapM_eq_ok {xs : List α} {ys : List β} (h : xs.mapM f = .ok ys) {x : α}
    (hx : x ∈ xs) : ∃ y, f x = .ok y := by
  have hall := (mapM_eq_ok_iff f xs ys).mp h
  clear h
  induction hall with
  | nil => simp at hx
  | cons hxy _ ih =>
    rcases List.mem_cons.mp hx with rfl | hx
    · exact ⟨_, hxy⟩
    · exact ih hx

/-- `xs` has a first entry whose step fails, and it fails with `e`. -/
def FirstError (xs : List α) (e : ε) : Prop :=
  ∃ pre x post, xs = pre ++ x :: post ∧ (∀ y ∈ pre, ∃ b, f y = .ok b) ∧ f x = .error e

theorem not_firstError_nil (e : ε) : ¬ FirstError f [] e := by
  rintro ⟨pre, x, post, h, -, -⟩
  simp at h

/-- A failing head is the first failure. -/
theorem firstError_cons_of_error {x : α} {e' : ε} (hx : f x = .error e') (xs : List α) (e : ε) :
    FirstError f (x :: xs) e ↔ e' = e := by
  constructor
  · rintro ⟨pre, x', post, hsplit, hpre, hx'⟩
    cases pre with
    | nil =>
      simp only [List.nil_append, List.cons.injEq] at hsplit
      rw [← hsplit.1, hx] at hx'
      simpa using hx'
    | cons p pre =>
      -- the head would have to succeed
      simp only [List.cons_append, List.cons.injEq] at hsplit
      obtain ⟨b, hb⟩ := hpre p (by simp)
      rw [← hsplit.1, hx] at hb
      cases hb
  · rintro rfl
    exact ⟨[], x, xs, rfl, by simp, hx⟩

/-- Past a head that succeeds, the first failure is the first failure of the tail. -/
theorem firstError_cons_of_ok {x : α} {b : β} (hx : f x = .ok b) (xs : List α) (e : ε) :
    FirstError f (x :: xs) e ↔ FirstError f xs e := by
  constructor
  · rintro ⟨pre, x', post, hsplit, hpre, hx'⟩
    cases pre with
    | nil =>
      simp only [List.nil_append, List.cons.injEq] at hsplit
      rw [← hsplit.1, hx] at hx'
      cases hx'
    | cons p pre =>
      simp only [List.cons_append, List.cons.injEq] at hsplit
      obtain ⟨rfl, rfl⟩ := hsplit
      exact ⟨pre, x', post, rfl, fun y hy => hpre y (by simp [hy]), hx'⟩
  · rintro ⟨pre, x', post, rfl, hpre, hx'⟩
    refine ⟨x :: pre, x', post, rfl, fun y hy => ?_, hx'⟩
    rcases List.mem_cons.mp hy with rfl | hy
    · exact ⟨b, hx⟩
    · exact hpre y hy

/-- A traversal fails exactly with the failure of the first entry that fails. -/
theorem mapM_eq_error_iff : ∀ (xs : List α) (e : ε), xs.mapM f = .error e ↔ FirstError f xs e
  | [], e => by simp [pure, Except.pure, not_firstError_nil]
  | x :: xs, e => by
    rw [List.mapM_cons]
    cases hx : f x with
    | error e' =>
      rw [firstError_cons_of_error f hx]
      simp [bind, Except.bind]
    | ok b =>
      rw [firstError_cons_of_ok f hx, ← mapM_eq_error_iff xs e]
      cases xs.mapM f <;> simp [bind, Except.bind, pure, Except.pure]

end Traverse

/-! ## Returns of one instrument -/

section Returns

variable {xs : List Execution} {k : ReturnKind} {cost : Float}

theorem calculateReturns_of_alternating (h : Alternating xs) :
    calculateReturns xs k cost = .ok (pairedReturns k cost xs) :=
  returnsFrom_of_alternating 0 h

theorem calculateReturns_of_firstBreak {i : Nat} (hi : i < xs.length) (h : FirstBreak xs i hi) :
    calculateReturns xs k cost =
      .error (.executionOrder i (expectedSide i).name xs[i].side.name) := by
  have hloop : returnsFrom k cost 0 none xs = _ := returnsFrom_of_firstBreak 0 i hi h
  rw [Nat.zero_add] at hloop
  exact hloop

theorem calculateReturns_eq_ok_iff {rs : List Float} :
    calculateReturns xs k cost = .ok rs ↔ Alternating xs ∧ rs = pairedReturns k cost xs := by
  by_cases h : Alternating xs
  · rw [calculateReturns_of_alternating h]
    simp [h, eq_comm]
  · obtain ⟨i, hi, hbreak⟩ := exists_firstBreak h
    rw [calculateReturns_of_firstBreak hi hbreak]
    simp [h]

theorem calculateReturns_eq_error_iff {e : Error} :
    calculateReturns xs k cost = .error e ↔
      ∃ i, ∃ hi : i < xs.length, FirstBreak xs i hi ∧
        e = .executionOrder i (expectedSide i).name xs[i].side.name := by
  by_cases h : Alternating xs
  · rw [calculateReturns_of_alternating h]
    simp only [reduceCtorEq, false_iff, not_exists, not_and]
    intro i hi hbreak
    exact absurd h (not_alternating_of_firstBreak hbreak)
  · obtain ⟨i, hi, hbreak⟩ := exists_firstBreak h
    rw [calculateReturns_of_firstBreak hi hbreak, Except.error.injEq]
    constructor
    · rintro rfl
      exact ⟨i, hi, hbreak, rfl⟩
    · -- the first break is the one the loop reports
      rintro ⟨i', hi', hbreak', rfl⟩
      obtain rfl := hbreak.unique hbreak'
      rfl

end Returns

/-! ## Returns of every instrument -/

section AllInstruments

variable {k : ReturnKind} {cost : Float}

/-- The returns of one instrument's executions, under its name. -/
def entryReturns (k : ReturnKind) (cost : Float) (e : String × List Execution) :
    Except Error (String × List Float) :=
  (calculateReturns e.2 k cost).map (e.1, ·)

theorem entryReturns_eq_ok_iff {e : String × List Execution} {r : String × List Float} :
    entryReturns k cost e = .ok r ↔ r.1 = e.1 ∧ calculateReturns e.2 k cost = .ok r.2 := by
  unfold entryReturns
  cases calculateReturns e.2 k cost with
  | error => simp [Except.map]
  | ok rs =>
    obtain ⟨n, rs'⟩ := r
    simp [Except.map, eq_comm]

theorem entryReturns_eq_error_iff {e : String × List Execution} {err : Error} :
    entryReturns k cost e = .error err ↔ calculateReturns e.2 k cost = .error err := by
  unfold entryReturns
  cases calculateReturns e.2 k cost <;> simp [Except.map]

theorem returnsForAll_eq_ok_iff_mapM {m : Keyed (List Execution)} {r : Keyed (List Float)} :
    returnsForAll m k cost = .ok r ↔ m.entries.mapM (entryReturns k cost) = .ok r.entries :=
  Keyed.mapExcept_eq_ok_iff

theorem returnsForAll_eq_error_iff_mapM {m : Keyed (List Execution)} {err : Error} :
    returnsForAll m k cost = .error err ↔ m.entries.mapM (entryReturns k cost) = .error err :=
  Keyed.mapExcept_eq_error_iff

theorem returnsForAll_eq_ok_iff {m : Keyed (List Execution)} {r : Keyed (List Float)} :
    returnsForAll m k cost = .ok r ↔
      List.Forall₂ (fun e e' => e'.1 = e.1 ∧ calculateReturns e.2 k cost = .ok e'.2)
        m.entries r.entries := by
  rw [returnsForAll_eq_ok_iff_mapM, mapM_eq_ok_iff]
  simp only [entryReturns_eq_ok_iff]

theorem returnsForAll_eq_error_iff {m : Keyed (List Execution)} {err : Error} :
    returnsForAll m k cost = .error err ↔
      FirstError (fun e => calculateReturns e.2 k cost) m.entries err := by
  rw [returnsForAll_eq_error_iff_mapM, mapM_eq_error_iff]
  simp only [FirstError, entryReturns_eq_ok_iff, entryReturns_eq_error_iff]
  constructor
  · rintro ⟨pre, x, post, hsplit, hpre, hx⟩
    exact ⟨pre, x, post, hsplit, fun y hy => by
      obtain ⟨b, hb1, hb2⟩ := hpre y hy
      exact ⟨b.2, hb2⟩, hx⟩
  · rintro ⟨pre, x, post, hsplit, hpre, hx⟩
    exact ⟨pre, x, post, hsplit, fun y hy => by
      obtain ⟨b, hb⟩ := hpre y hy
      exact ⟨(y.1, b), rfl, hb⟩, hx⟩

/-- All instruments' returns are measured exactly when each instrument's are. -/
theorem returnsForAll_ok_iff_forall {m : Keyed (List Execution)} :
    (∃ r, returnsForAll m k cost = .ok r) ↔
      ∀ name es, (name, es) ∈ m.entries → ∃ rs, calculateReturns es k cost = .ok rs := by
  constructor
  · rintro ⟨r, hr⟩ name es hmem
    obtain ⟨y, hy⟩ := exists_ok_of_mapM_eq_ok _ (returnsForAll_eq_ok_iff_mapM.mp hr) hmem
    exact ⟨y.2, (entryReturns_eq_ok_iff.mp hy).2⟩
  · intro hall
    cases hres : returnsForAll m k cost with
    | ok r => exact ⟨r, rfl⟩
    | error err =>
      -- a failure would come from an instrument that fails
      obtain ⟨pre, ⟨name, es⟩, post, hsplit, -, hx⟩ := returnsForAll_eq_error_iff.mp hres
      have hfail : calculateReturns es k cost = .error err := hx
      obtain ⟨rs, hrs⟩ := hall name es (by simp [hsplit])
      rw [hrs] at hfail
      cases hfail

/-- Instruments are listed in ascending name order, so the failure of all instruments is the
failure of the one with the least name among those that fail. -/
theorem returnsForAll_eq_error_iff_least {m : Keyed (List Execution)} {err : Error} :
    returnsForAll m k cost = .error err ↔
      ∃ name es, (name, es) ∈ m.entries ∧ calculateReturns es k cost = .error err ∧
        ∀ name' es', (name', es') ∈ m.entries → name' < name →
          ∃ rs, calculateReturns es' k cost = .ok rs := by
  rw [returnsForAll_eq_error_iff]
  constructor
  · rintro ⟨pre, ⟨name, es⟩, post, hsplit, hpre, hx⟩
    refine ⟨name, es, by simp [hsplit], hx, fun name' es' hmem hlt => ?_⟩
    -- an entry with a smaller name stands before the first failure
    rw [hsplit, List.mem_append, List.mem_cons] at hmem
    rcases hmem with hmem | heq | hmem
    · exact hpre _ hmem
    · simp only [Prod.mk.injEq] at heq
      exact absurd (heq.1 ▸ hlt) (lt_irrefl _)
    · exact absurd (Keyed.lt_of_mem_after hsplit hmem) (not_lt.mpr hlt.le)
  · rintro ⟨name, es, hmem, hx, hless⟩
    -- split the entries at the failing instrument: everything before it has a smaller name
    obtain ⟨pre, post, hsplit⟩ := List.append_of_mem hmem
    refine ⟨pre, (name, es), post, hsplit, fun y hy => ?_, hx⟩
    exact hless y.1 y.2 (by simp [hsplit, hy]) (Keyed.lt_of_mem_before hsplit hy)

end AllInstruments

/-- Returns are measured exactly on executions that alternate purchase, sale, …: then there
is one return per round trip, `xs[2j]` bought and `xs[2j+1]` sold, and a last purchase left open
gives none. Otherwise the measurement fails at the first execution out of turn, naming the side
it should have had and the side it has. Over all instruments, the returns are measured when they
are for every instrument, each under its own name; otherwise the failure is that of the failing
instrument with the least name. -/
theorem returns_alternation (k : ReturnKind) (cost : Float) :
    (∀ xs : List Execution,
      ((∃ rs, calculateReturns xs k cost = .ok rs) ↔ Alternating xs) ∧
      (∀ rs, calculateReturns xs k cost = .ok rs →
        rs.length = xs.length / 2 ∧
        ∀ j (hj : 2 * j + 1 < xs.length),
          rs[j]? = some (k.apply xs[2 * j + 1].price xs[2 * j].price cost)) ∧
      (∀ e, calculateReturns xs k cost = .error e ↔
        ∃ i, ∃ hi : i < xs.length, FirstBreak xs i hi ∧
          e = .executionOrder i (expectedSide i).name xs[i].side.name)) ∧
    (∀ m : Keyed (List Execution),
      ((∃ r, returnsForAll m k cost = .ok r) ↔
        ∀ name es, (name, es) ∈ m.entries → ∃ rs, calculateReturns es k cost = .ok rs) ∧
      (∀ r, returnsForAll m k cost = .ok r →
        List.Forall₂ (fun e e' => e'.1 = e.1 ∧ calculateReturns e.2 k cost = .ok e'.2)
          m.entries r.entries) ∧
      (∀ err, returnsForAll m k cost = .error err ↔
        ∃ name es, (name, es) ∈ m.entries ∧ calculateReturns es k cost = .error err ∧
          ∀ name' es', (name', es') ∈ m.entries → name' < name →
            ∃ rs, calculateReturns es' k cost = .ok rs)) := by
  refine ⟨fun xs => ⟨?_, ?_, fun e => calculateReturns_eq_error_iff⟩,
    fun m => ⟨returnsForAll_ok_iff_forall, fun r => returnsForAll_eq_ok_iff.mp,
      fun err => returnsForAll_eq_error_iff_least⟩⟩
  · -- one instrument succeeds exactly on alternation
    constructor
    · rintro ⟨rs, hrs⟩
      exact (calculateReturns_eq_ok_iff.mp hrs).1
    · intro h
      exact ⟨_, calculateReturns_of_alternating h⟩
  · intro rs hrs
    obtain ⟨-, rfl⟩ := calculateReturns_eq_ok_iff.mp hrs
    exact ⟨length_pairedReturns k cost xs, getElem?_pairedReturns k cost xs⟩

/-- Three instruments listed by name, of which the second starts with a sale and the third buys
twice: the failure reported is the second's, and the first, a purchase left open, measures. -/
theorem returns_alternation_leastFailing :
    returnsForAll ⟨[("A", [⟨.buy, "d0", 0, 1.0⟩]), ("B", [⟨.sell, "d0", 0, 1.0⟩]),
        ("C", [⟨.buy, "d0", 0, 1.0⟩, ⟨.buy, "d1", 1, 1.0⟩])], by decide⟩ .simple 0.0 =
      .error (.executionOrder 0 "Buy" "Sell") := by
  refine (((returns_alternation .simple 0.0).2 _).2.2 _).mpr
    ⟨"B", [⟨.sell, "d0", 0, 1.0⟩], by simp, rfl, fun name' es' hmem hlt => ?_⟩
  simp only [List.mem_cons, Prod.mk.injEq, List.not_mem_nil, or_false] at hmem
  rcases hmem with ⟨rfl, rfl⟩ | ⟨rfl, -⟩ | ⟨rfl, -⟩
  · exact ⟨[], rfl⟩
  · exact absurd hlt (by decide)
  · exact absurd hlt (by decide)

end Trading
end Backtest
