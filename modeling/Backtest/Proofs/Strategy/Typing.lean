import Mathlib
import Backtest.Strategy.Eval
/-!
# Proofs.Strategy.Typing — well-typed predicates do not go wrong on types

The static typing of strategy expressions, stated as an inductive relation of its own: literals
and variables have their evident types, `!` takes and gives a bool and unary `-` a number, the
logical operators join bools, `==` and `!=` join two operands of one type, comparisons join
numbers into a bool and arithmetic joins numbers into a number. `Indicator(name, instrument,
time)` takes text, text and a number; `IndQuantile(name, percentile, instrument, time)` takes a
text or numeric percentile in the second place.

The evaluator checks types again at run time. Its soundness says that a well-typed tree never
meets one of those checks: it evaluates to a value of its static type, or fails for a reason
that is not about types (a lookup, an invalid time, a division by zero).

* `HasType e τ` — the typing relation;
* `TypeSafe P r` — `r` is a value satisfying `P` or a failure other than a type mismatch;
* `eval_typeSafe` — evaluation of a well-typed tree is type safe at its type;
* `evaluate_typeSafe` — so is the truth of a bool-typed predicate.
-/

namespace Backtest
namespace Strategy

/-! ## The typing relation -/

/-- The families of binary operators, by the types they join. -/
inductive OpFamily where
  | logical
  | equality
  | comparison
  | arithmetic
  deriving DecidableEq, Repr

/-- The family of a binary operator. -/
def BinaryOp.family : BinaryOp → OpFamily
  | .or | .and => .logical
  | .eq | .ne => .equality
  | .lt | .le | .gt | .ge => .comparison
  | .add | .sub | .mul | .div => .arithmetic

/-- Static typing of strategy expressions. -/
inductive HasType : Expr → ValueType → Prop where
  | number (x : Float) : HasType (.number x) .number
  | bool (b : Bool) : HasType (.bool b) .bool
  | text (s : String) : HasType (.text s) .text
  | instrument : HasType .instrument .text
  | time : HasType .time .number
  | not {e : Expr} : HasType e .bool → HasType (.unary .not e) .bool
  | negate {e : Expr} : HasType e .number → HasType (.unary .negate e) .number
  | logical {op : BinaryOp} {l r : Expr} : op.family = .logical →
      HasType l .bool → HasType r .bool → HasType (.binary op l r) .bool
  | equality {op : BinaryOp} {l r : Expr} {τ : ValueType} : op.family = .equality →
      HasType l τ → HasType r τ → HasType (.binary op l r) .bool
  | comparison {op : BinaryOp} {l r : Expr} : op.family = .comparison →
      HasType l .number → HasType r .number → HasType (.binary op l r) .bool
  | arithmetic {op : BinaryOp} {l r : Expr} : op.family = .arithmetic →
      HasType l .number → HasType r .number → HasType (.binary op l r) .number
  | indicator {n i t : Expr} : HasType n .text → HasType i .text → HasType t .number →
      HasType (.indicator n i t) .number
  | quantile {n p i t : Expr} {τ : ValueType} : HasType n .text → (τ = .text ∨ τ = .number) →
      HasType p τ → HasType i .text → HasType t .number → HasType (.quantile n p i t) .number

/-! ## Type-safe results -/

/-- The failures that come from a type check. -/
def EvalError.IsTypeMismatch : EvalError → Prop
  | .typeMismatch _ _ => True
  | _ => False

/-- A result that is a value satisfying `P`, or a failure that is not a type mismatch. -/
def TypeSafe {α : Type} (P : α → Prop) : Except EvalError α → Prop
  | .ok a => P a
  | .error e => ¬e.IsTypeMismatch

section TypeSafe

variable {α β : Type} {P : α → Prop} {Q : β → Prop}

@[simp] theorem typeSafe_ok (a : α) : TypeSafe P (.ok a) ↔ P a := Iff.rfl

@[simp] theorem typeSafe_error (e : EvalError) :
    TypeSafe P (.error e : Except EvalError α) ↔ ¬e.IsTypeMismatch := Iff.rfl

/-- A type-safe result passed to a step that is type safe on every good value stays type
safe: failures of the first are passed on unchanged. -/
theorem TypeSafe.bind {r : Except EvalError α} {f : α → Except EvalError β}
    (hr : TypeSafe P r) (hf : ∀ a, P a → TypeSafe Q (f a)) : TypeSafe Q (r >>= f) := by
  cases r with
  | error e => exact hr
  | ok a => exact hf a hr

theorem TypeSafe.pure {b : β} (h : Q b) : TypeSafe Q (Pure.pure b : Except EvalError β) := h

theorem typeSafe_pure_trivial (b : β) :
    TypeSafe (fun _ => True) (Pure.pure b : Except EvalError β) := trivial

end TypeSafe

/-- A type-safe truth value is a truth value or one of the three failures that are not about
types. -/
theorem typeSafe_true_iff (r : Except EvalError Bool) :
    TypeSafe (fun _ => True) r ↔
      (∃ b, r = .ok b) ∨ (∃ l, r = .error (.lookup l)) ∨ (∃ x, r = .error (.invalidTime x)) ∨
        r = .error .divisionByZero := by
  cases r with
  | ok b => simp
  | error e => cases e <;> simp [EvalError.IsTypeMismatch]

/-! ## The evaluator's checks on well-typed values -/

namespace Value

theorem asBool_of_type {v : Value} (h : v.type = .bool) : ∃ b, v.asBool = .ok b := by
  cases v <;> simp_all [type, asBool]

theorem asNumber_of_type {v : Value} (h : v.type = .number) : ∃ x, v.asNumber = .ok x := by
  cases v <;> simp_all [type, asNumber]

theorem asText_of_type {v : Value} (h : v.type = .text) : ∃ s, v.asText = .ok s := by
  cases v <;> simp_all [type, asText]

end Value

/-- A value of the expected type passes the check for it. -/
theorem typeSafe_asBool {v : Value} (h : v.type = .bool) : TypeSafe (fun _ => True) v.asBool := by
  obtain ⟨b, hb⟩ := Value.asBool_of_type h
  simp [hb]

theorem typeSafe_asNumber {v : Value} (h : v.type = .number) :
    TypeSafe (fun _ => True) v.asNumber := by
  obtain ⟨x, hx⟩ := Value.asNumber_of_type h
  simp [hx]

theorem typeSafe_asText {v : Value} (h : v.type = .text) : TypeSafe (fun _ => True) v.asText := by
  obtain ⟨s, hs⟩ := Value.asText_of_type h
  simp [hs]

/-- A time argument is an index or an invalid time. -/
theorem typeSafe_timeIndex (x : Float) : TypeSafe (fun _ => True) (timeIndex x) := by
  unfold timeIndex
  split <;> simp [EvalError.IsTypeMismatch]

/-- A dataset lookup is a value or a lookup failure. -/
theorem typeSafe_liftLookup {α : Type} (r : Except LookupError α) :
    TypeSafe (fun _ => True) (liftLookup r) := by
  cases r <;> simp [liftLookup, EvalError.IsTypeMismatch]

/-- Comparisons give a bool. -/
theorem typeSafe_arithmetic_comparison {op : BinaryOp} (h : op.family = .comparison)
    (l r : Float) : TypeSafe (fun v => v.type = .bool) (arithmetic op l r) := by
  cases op <;> simp_all [BinaryOp.family, arithmetic, Value.type]

/-- Arithmetic gives a number, or fails on a division by zero. -/
theorem typeSafe_arithmetic_arithmetic {op : BinaryOp} (h : op.family = .arithmetic)
    (l r : Float) : TypeSafe (fun v => v.type = .number) (arithmetic op l r) := by
  cases op <;> simp_all [BinaryOp.family, arithmetic, Value.type]
  -- only division can fail, and not on a type
  split <;> simp [EvalError.IsTypeMismatch]

/-! ## Soundness of evaluation -/

section Eval

variable {ds : Dataset} {inst : String} {t : Nat}

/-- Comparisons and arithmetic read two numbers, left first, and combine them. -/
theorem eval_numeric {op : BinaryOp} (h : op.family = .comparison ∨ op.family = .arithmetic)
    (l r : Expr) :
    eval ds inst t (.binary op l r) =
      (eval ds inst t l >>= fun v => v.asNumber >>= fun a =>
        eval ds inst t r >>= fun w => w.asNumber >>= fun b => arithmetic op a b) := by
  cases op <;> simp [BinaryOp.family] at h <;> simp only [eval]

/-- A well-typed tree evaluates to a value of its type, or fails for a reason other than a
type mismatch. -/
theorem eval_typeSafe {e : Expr} {τ : ValueType} (h : HasType e τ) :
    TypeSafe (fun v => v.type = τ) (eval ds inst t e) := by
  induction h with
  | number x => simp [eval, Value.type]
  | bool b => simp [eval, Value.type]
  | text s => simp [eval, Value.type]
  | instrument => simp [eval, Value.type]
  | time => simp [eval, Value.type]
  | not _ ih =>
    simp only [eval]
    refine ih.bind fun v hv => ?_
    exact (typeSafe_asBool hv).bind fun _ _ => TypeSafe.pure rfl
  | negate _ ih =>
    simp only [eval]
    refine ih.bind fun v hv => ?_
    exact (typeSafe_asNumber hv).bind fun _ _ => TypeSafe.pure rfl
  | @logical op l r hop _ _ ihl ihr =>
    cases op <;> simp [BinaryOp.family] at hop
    · -- `||` reads its right side only when the left is false
      simp only [eval]
      refine ihl.bind fun v hv => (typeSafe_asBool hv).bind fun b _ => ?_
      split
      · exact TypeSafe.pure rfl
      · exact ihr.bind fun w hw => (typeSafe_asBool hw).bind fun _ _ => TypeSafe.pure rfl
    · -- `&&` reads its right side only when the left is true
      simp only [eval]
      refine ihl.bind fun v hv => (typeSafe_asBool hv).bind fun b _ => ?_
      split
      · exact TypeSafe.pure rfl
      · exact ihr.bind fun w hw => (typeSafe_asBool hw).bind fun _ _ => TypeSafe.pure rfl
  | @equality op l r τ hop _ _ ihl ihr =>
    -- both sides have the type `τ`, so the run-time check of equal types passes
    cases op <;> simp [BinaryOp.family] at hop
    all_goals
      simp only [eval]
      refine ihl.bind fun a ha => ihr.bind fun b hb => ?_
      have hsame : a.type = b.type := ha.trans hb.symm
      simp only [hsame, ne_eq, not_true_eq_false, if_false]
      exact TypeSafe.pure rfl
  | @comparison op l r hop _ _ ihl ihr =>
    rw [eval_numeric (.inl hop)]
    refine ihl.bind fun v hv => (typeSafe_asNumber hv).bind fun a _ => ?_
    refine ihr.bind fun w hw => (typeSafe_asNumber hw).bind fun b _ => ?_
    exact typeSafe_arithmetic_comparison hop a b
  | @arithmetic op l r hop _ _ ihl ihr =>
    rw [eval_numeric (.inr hop)]
    refine ihl.bind fun v hv => (typeSafe_asNumber hv).bind fun a _ => ?_
    refine ihr.bind fun w hw => (typeSafe_asNumber hw).bind fun b _ => ?_
    exact typeSafe_arithmetic_arithmetic hop a b
  | indicator _ _ _ ihn ihi iht =>
    simp only [eval]
    refine ihn.bind fun v hv => (typeSafe_asText hv).bind fun _ _ => ?_
    refine ihi.bind fun w hw => (typeSafe_asText hw).bind fun _ _ => ?_
    refine iht.bind fun x hx => (typeSafe_asNumber hx).bind fun y _ => ?_
    refine (typeSafe_timeIndex y).bind fun _ _ => ?_
    exact (typeSafe_liftLookup _).bind fun _ _ => TypeSafe.pure rfl
  | quantile _ hτ _ _ _ ihn ihp ihi iht =>
    simp only [eval]
    refine ihn.bind fun v hv => (typeSafe_asText hv).bind fun _ _ => ?_
    refine ihp.bind fun p hp => ?_
    -- a numeric percentile is looked up by its label, a text one as it is; a bool is no
    -- percentile type
    cases p
    case' bool b =>
      simp only [Value.type] at hp
      simp [← hp] at hτ
    case' number x => refine (typeSafe_pure_trivial (Quantile.label x)).bind fun _ _ => ?_
    case' text s =>
      refine (typeSafe_asText (show (Value.text s).type = .text from rfl)).bind fun _ _ => ?_
    all_goals
    refine ihi.bind fun w hw => (typeSafe_asText hw).bind fun _ _ => ?_
    refine iht.bind fun x hx => (typeSafe_asNumber hx).bind fun y _ => ?_
    refine (typeSafe_timeIndex y).bind fun _ _ => ?_
    exact (typeSafe_liftLookup _).bind fun _ _ => TypeSafe.pure rfl

/-- The truth of a bool-typed predicate is a truth value or a failure other than a type
mismatch. -/
theorem evaluate_typeSafe {e : Expr} (h : HasType e .bool) :
    TypeSafe (fun _ => True) (evaluate ds inst t e) := by
  unfold evaluate
  exact (eval_typeSafe h).bind fun _ hv => typeSafe_asBool hv

end Eval

end Strategy
end Backtest
