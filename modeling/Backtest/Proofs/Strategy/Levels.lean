import Mathlib
import Backtest.Strategy.Parser
/-!
# Proofs.Strategy.Levels — the shape the binary levels share

Every binary level of the parser reads its first operand one level tighter and hands it to the
loop of its operators. Every loop but the one of `==` and `!=` then reads an operator, reads the
right operand one level tighter, checks both operands against one type, and goes on with the
joined tree. The parser writes this shape out once per level; here it is stated once, so that a
property of the parser is proved of the shape and then applied to each level.

* `levelStep` — a level: its first operand handed to its loop;
* `operandStep` — one round of a loop that checks both operands against one type, and
  `operandStep_eq_match`, the same round as the parser writes it, match by match;
* `parseOr_eq_levelStep`, …, `multiplicativeRest_eq_operandStep` — each level and each such
  loop of the parser is the shape at its own operators, operand and types.
-/

namespace Backtest
namespace Strategy

/-- A binary level: the outcome of its first operand, handed to its loop from where the operand
ended. -/
def levelStep {c : Cursor} (operand : Outcome c Typed)
    (loop : (d : Cursor) → Typed → Outcome d Typed) : Outcome c Typed :=
  match operand with
  | .error e => .error e
  | .ok (left, ⟨d, hd⟩) => (loop d left).widen hd

/-- One round of an operand loop that checks both operands against `σ` and gives the joined
tree the type `τ`: past the blanks it reads one of its operators with `eat` (none ends the loop
at the left operand), then the right operand, then checks the left operand and the right one,
and goes on with the joined tree. The first failure is the round's. -/
def operandStep (eat : (s : Cursor) → Option (BinaryOp × s.Ahead))
    (operand : (s : Cursor) → Outcome s Typed) (loop : (d : Cursor) → Typed → Outcome d Typed)
    (σ τ : ValueType) (c : Cursor) (left : Typed) : Outcome c Typed :=
  match c.skip with
  | ⟨s, hs⟩ =>
    (eat s).elim (.ok (left, ⟨s, hs⟩)) fun eaten =>
      (operand eaten.2.1).bind fun right =>
        (require s.pos eaten.1 σ left.2).bind fun _ =>
          (require s.pos eaten.1 σ right.1.2).bind fun _ =>
            (loop right.2.1 (.binary eaten.1 left.1 right.1.1, τ)).widen
              (Nat.le_trans right.2.2 (Nat.le_trans (Nat.le_of_lt eaten.2.2) hs))

@[simp] theorem levelStep_error {c : Cursor} (e : ParseError)
    (loop : (d : Cursor) → Typed → Outcome d Typed) :
    levelStep (c := c) (.error e) loop = .error e := rfl

@[simp] theorem levelStep_ok {c : Cursor} (left : Typed) (d : c.After)
    (loop : (d : Cursor) → Typed → Outcome d Typed) :
    levelStep (.ok (left, d)) loop = (loop d.1 left).widen d.2 := rfl

/-- `operandStep` is the parser's own loop body: the same reads and checks, in the same order,
written with the parser's matches. -/
theorem operandStep_eq_match (eat : (s : Cursor) → Option (BinaryOp × s.Ahead))
    (operand : (s : Cursor) → Outcome s Typed) (loop : (d : Cursor) → Typed → Outcome d Typed)
    (σ τ : ValueType) (c : Cursor) (left : Typed) :
    operandStep eat operand loop σ τ c left = match c.skip with
      | ⟨s, hs⟩ =>
        match eat s with
        | none => .ok (left, ⟨s, hs⟩)
        | some (op, ⟨s2, h2⟩) =>
          match operand s2 with
          | .error e => .error e
          | .ok ((r, rt), ⟨e, he⟩) =>
            match require s.pos op σ left.2, require s.pos op σ rt with
            | .error err, _ => .error err
            | .ok (), .error err => .error err
            | .ok (), .ok () =>
              ((loop e (.binary op left.1 r, τ)).widen
                (Nat.le_trans he (Nat.le_trans (Nat.le_of_lt h2) hs)) : Outcome c Typed) := by
  rw [operandStep]
  rcases c.skip with ⟨s, hs⟩
  dsimp only
  -- follow the reads one by one; each failure is passed on unchanged
  rcases eat s with _ | ⟨op, s2, h2⟩
  · rfl
  · dsimp only [Option.elim]
    rcases operand s2 with e | ⟨⟨r, rt⟩, e, he⟩
    · rfl
    · dsimp only [Except.bind]
      rcases require s.pos op σ left.2 with _ | ⟨⟩ <;> rcases require s.pos op σ rt with _ | ⟨⟩ <;>
        rfl

/-- A loop that finds none of its operators past the blanks returns its left operand there. -/
theorem operandStep_of_eat_none {eat : (s : Cursor) → Option (BinaryOp × s.Ahead)}
    {operand : (s : Cursor) → Outcome s Typed} {loop : (d : Cursor) → Typed → Outcome d Typed}
    {σ τ : ValueType} {c : Cursor} {left : Typed} (h : eat c.skip.1 = none) :
    operandStep eat operand loop σ τ c left = .ok (left, c.skip) := by
  rw [operandStep_eq_match]
  rcases hsk : c.skip with ⟨s, hs⟩
  rw [hsk] at h
  simp only [h]

section Equations

variable (depth : Nat) (c : Cursor) (left : Typed)

theorem parseOr_eq_levelStep : parseOr depth c = levelStep (parseAnd depth c) (orRest depth) := by
  rw [parseOr]
  rfl

theorem parseAnd_eq_levelStep :
    parseAnd depth c = levelStep (parseEquality depth c) (andRest depth) := by
  rw [parseAnd]
  rfl

theorem parseEquality_eq_levelStep :
    parseEquality depth c = levelStep (parseComparison depth c) (equalityRest depth) := by
  rw [parseEquality]
  rfl

theorem parseComparison_eq_levelStep :
    parseComparison depth c = levelStep (parseAdditive depth c) (comparisonRest depth) := by
  rw [parseComparison]
  rfl

theorem parseAdditive_eq_levelStep :
    parseAdditive depth c = levelStep (parseMultiplicative depth c) (additiveRest depth) := by
  rw [parseAdditive]
  rfl

theorem parseMultiplicative_eq_levelStep :
    parseMultiplicative depth c = levelStep (parseUnary depth c) (multiplicativeRest depth) := by
  rw [parseMultiplicative]
  rfl

theorem orRest_eq_operandStep :
    orRest depth c left = operandStep (fun s => eatLogical s .or "||" "or") (parseAnd depth)
      (orRest depth) .bool .bool c left := by
  rw [orRest]
  symm
  exact operandStep_eq_match _ _ _ _ _ c left

theorem andRest_eq_operandStep :
    andRest depth c left = operandStep (fun s => eatLogical s .and "&&" "and")
      (parseEquality depth) (andRest depth) .bool .bool c left := by
  rw [andRest]
  symm
  exact operandStep_eq_match _ _ _ _ _ c left

theorem comparisonRest_eq_operandStep :
    comparisonRest depth c left = operandStep
      (fun s => eatBinary s [(.le, "<=", []), (.ge, ">=", []), (.lt, "<", []), (.gt, ">", [])])
      (parseAdditive depth) (comparisonRest depth) .number .bool c left := by
  rw [comparisonRest]
  symm
  exact operandStep_eq_match _ _ _ _ _ c left

/-- Arithmetic keeps the type of its left operand, which the check has made a number. -/
theorem additiveRest_eq_operandStep :
    additiveRest depth c left = operandStep (fun s => eatBinary s [(.add, "+", []), (.sub, "-", [])])
      (parseMultiplicative depth) (additiveRest depth) .number left.2 c left := by
  rw [additiveRest]
  symm
  exact operandStep_eq_match _ _ _ _ _ c left

theorem multiplicativeRest_eq_operandStep :
    multiplicativeRest depth c left = operandStep
      (fun s => eatBinary s [(.mul, "*", []), (.div, "/", [])])
      (parseUnary depth) (multiplicativeRest depth) .number left.2 c left := by
  rw [multiplicativeRest]
  symm
  exact operandStep_eq_match _ _ _ _ _ c left

end Equations

end Strategy
end Backtest
