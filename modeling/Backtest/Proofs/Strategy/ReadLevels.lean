import Mathlib
import Backtest.Proofs.Strategy.Levels
import Backtest.Proofs.Strategy.Typing
/-!
# Proofs.Strategy.ReadLevels — the binary levels over printed operands

A printed binary node is `(l op r)`: one blank on each side of the operator, and a closing
parenthesis, a comma or a semicolon after the right operand. This module follows the six
binary levels of the parser over such text. A level reads its operand one level tighter and
hands it to its loop; a loop reads its operator and the right operand, checks the two types and
goes on, and stops where the blanks end at a character that starts none of its operators.

* `ReadsBack` — the outcome of reading a printed tree from some cursor: the tree, where the
  parser's two budgets allow, and a budget failure otherwise;
* `parseLevel`, `restLevel` — the six levels and their loops, indexed loosest first, so that
  one statement covers every operator;
* `readsBack_down` — the loops between two levels each hand their operand on;
* `restLevel_consume` — the loop of an operator's level at the printed operator reads the right
  operand and joins the two.
-/

namespace Backtest
namespace Strategy

open Text

/-! ## Reading back -/

/-- A failure for one of the parser's two budgets. -/
def ParseError.OverBudget (err : ParseError) : Prop :=
  err.message = "expression nested too deeply" ∨ err.message = "expression too long"

/-- The outcome of reading back the printed form of `t`: when the budgets allow (`fits`), the
tree `t` with the cursor at `rest` after `k` operands; otherwise a budget failure. It reads
only the cursor of a result, not the proof that came with it. -/
def ReadsBack (t : Typed) (rest : List Char) (k : Nat) (fits : Prop) {P : Cursor → Prop} :
    Except ParseError (Typed × Subtype P) → Prop
  | .ok (t', d) => fits ∧ t' = t ∧ d.1.rest = rest ∧ d.1.operands = k
  | .error err => ¬ fits ∧ err.OverBudget

section ReadsBack

variable {t : Typed} {rest : List Char} {k : Nat} {fits : Prop}

@[simp] theorem readsBack_widen {c d : Cursor} (h : d.rest.length ≤ c.rest.length)
    (o : Outcome d Typed) : ReadsBack t rest k fits (o.widen h) ↔ ReadsBack t rest k fits o := by
  rcases o with e | ⟨⟨x, τ⟩, ⟨d', hd'⟩⟩ <;> rfl

theorem ReadsBack.congr {P : Cursor → Prop} {o : Except ParseError (Typed × Subtype P)}
    {k' : Nat} {fits' : Prop} (h : ReadsBack t rest k fits o) (hk : k = k')
    (hfits : fits ↔ fits') : ReadsBack t rest k' fits' o := by
  subst hk
  rcases o with err | ⟨t', d⟩
  · exact ⟨hfits.not.mp h.1, h.2⟩
  · exact ⟨hfits.mp h.1, h.2⟩

end ReadsBack

/-! ## Scanning printed text -/

/-- What follows the printed form of an operand: the blank before an operator, a closing
parenthesis, the comma between arguments, or the semicolon of the template. -/
def Delimited (rest : List Char) : Prop :=
  ∃ ch tl, rest = ch :: tl ∧ (ch = ' ' ∨ ch = ')' ∨ ch = ',' ∨ ch = ';')

namespace Cursor

@[simp] theorem skip_rest (c : Cursor) : c.skip.1.rest = c.rest.dropWhile isBlank := rfl

@[simp] theorem skip_operands (c : Cursor) : c.skip.1.operands = c.operands := rfl

theorem skip_facts {c s : Cursor} {hs : s.rest.length ≤ c.rest.length} (h : c.skip = ⟨s, hs⟩) :
    s.rest = c.rest.dropWhile isBlank ∧ s.operands = c.operands := by
  have hsc : s = c.skip.1 := by rw [h]
  subst hsc
  exact ⟨rfl, rfl⟩

/-- Text the rest starts with is read whole. -/
theorem eat_append {c : Cursor} {p tail : List Char} (hc : c.rest = p ++ tail) (hp : p ≠ []) :
    ∃ d, c.eat p = some d ∧ d.1.rest = tail ∧ d.1.operands = c.operands := by
  have hpre : p.isPrefixOf c.rest = true := by
    rw [hc, List.isPrefixOf_iff_prefix]
    exact List.prefix_append p tail
  have hlen : 0 < p.length := List.length_pos_iff.mpr hp
  refine ⟨_, dif_pos ⟨hpre, hlen⟩, ?_, rfl⟩
  simp [Cursor.past, hc]

/-- Text whose first character differs from the rest's is not read. -/
theorem eat_cons_ne {c : Cursor} {a ch : Char} {p tl : List Char} (hc : c.rest = ch :: tl)
    (ha : a ≠ ch) : c.eat (a :: p) = none := by
  unfold Cursor.eat
  rw [dif_neg]
  simp [hc, List.isPrefixOf, ha]

/-- An operator whose first character differs from the rest's is not read. -/
theorem eatOperator_cons_ne {c : Cursor} {op : String} {longer : List String} {a ch : Char}
    {p tl : List Char} (hop : op.toList = a :: p) (hc : c.rest = ch :: tl) (ha : a ≠ ch) :
    c.eatOperator op longer = none := by
  unfold Cursor.eatOperator
  split
  · rfl
  · rw [hop]
    exact eat_cons_ne hc ha

/-- A keyword whose first character differs from the rest's is not read. -/
theorem eatKeyword_cons_ne {c : Cursor} {kw : String} {a ch : Char} {p tl : List Char}
    (hkw : kw.toList = a :: p) (hc : c.rest = ch :: tl) (ha : a ≠ ch) :
    c.eatKeyword kw = none := by
  unfold Cursor.eatKeyword
  split
  · rw [hkw]
    exact eat_cons_ne hc ha
  · rfl

/-- Blanks and then a character are read past by `expect`. -/
theorem expect_of_dropWhile {c : Cursor} {ch : Char} {tail : List Char}
    (hc : c.rest.dropWhile isBlank = ch :: tail) :
    ∃ d, c.expect ch = .ok d ∧ d.1.rest = tail ∧ d.1.operands = c.operands := by
  unfold Cursor.expect
  rcases hsk : c.skip with ⟨s, hs⟩
  have hsrest : s.rest = [ch] ++ tail := by
    rw [show s = c.skip.1 by rw [hsk], skip_rest, hc]
    rfl
  have hsops : s.operands = c.operands := by rw [show s = c.skip.1 by rw [hsk], skip_operands]
  obtain ⟨⟨d, hdlt⟩, hd, hrest, hops⟩ := eat_append hsrest (List.cons_ne_nil _ _)
  simp only [hd]
  exact ⟨_, rfl, hrest, hops.trans hsops⟩

end Cursor

/-- The logical loops read nothing where neither their operator nor their keyword stands. -/
theorem eatLogical_eq_none {c : Cursor} {op : BinaryOp} {sym kw : String}
    (h1 : c.eatOperator sym [] = none) (h2 : c.eatKeyword kw = none) :
    eatLogical c op sym kw = none := by
  simp [eatLogical, h1, h2]

/-- A binary level reads nothing where none of its operators stands. -/
theorem eatBinary_eq_none {c : Cursor} {ops : List (BinaryOp × String × List String)}
    (h : ∀ o ∈ ops, c.eatOperator o.2.1 o.2.2 = none) : eatBinary c ops = none := by
  induction ops with
  | nil => rfl
  | cons o more ih =>
    obtain ⟨op, sym, longer⟩ := o
    simp only [eatBinary, h _ List.mem_cons_self]
    exact ih fun o ho => h o (List.mem_cons_of_mem _ ho)

/-! ## The binary levels -/

/-- The parsing function of binary level `i`, loosest first; from level 6 on, the unary
level. -/
def parseLevel (depth : Nat) : Nat → (c : Cursor) → Outcome c Typed
  | 0 => parseOr depth
  | 1 => parseAnd depth
  | 2 => parseEquality depth
  | 3 => parseComparison depth
  | 4 => parseAdditive depth
  | 5 => parseMultiplicative depth
  | _ => parseUnary depth

theorem parseLevel_zero (depth : Nat) : parseLevel depth 0 = parseOr depth := rfl

theorem parseLevel_six (depth : Nat) : parseLevel depth 6 = parseUnary depth := rfl

/-- The operand loop of binary level `i`; from level 5 on, the loop of `*` and `/`. -/
def restLevel (depth : Nat) : Nat → (c : Cursor) → Typed → Outcome c Typed
  | 0 => orRest depth
  | 1 => andRest depth
  | 2 => equalityRest depth
  | 3 => comparisonRest depth
  | 4 => additiveRest depth
  | _ => multiplicativeRest depth

/-- The level whose loop reads an operator. -/
def BinaryOp.level : BinaryOp → Nat
  | .or => 0
  | .and => 1
  | .eq | .ne => 2
  | .lt | .le | .gt | .ge => 3
  | .add | .sub => 4
  | .mul | .div => 5

/-- The characters the operators and keywords of a binary level start with. -/
def levelHeads : Nat → List Char
  | 0 => ['|', 'o']
  | 1 => ['&', 'a']
  | 2 => ['=', '!']
  | 3 => ['<', '>']
  | 4 => ['+', '-']
  | _ => ['*', '/']

/-- A binary level reads an operand one level tighter and hands it to its loop. -/
theorem parseLevel_of_lt {depth i : Nat} (hi : i < 6) (c : Cursor) :
    parseLevel depth i c = levelStep (parseLevel depth (i + 1) c) (restLevel depth i) := by
  match i, hi with
  | 0, _ => exact parseOr_eq_levelStep depth c
  | 1, _ => exact parseAnd_eq_levelStep depth c
  | 2, _ => exact parseEquality_eq_levelStep depth c
  | 3, _ => exact parseComparison_eq_levelStep depth c
  | 4, _ => exact parseAdditive_eq_levelStep depth c
  | 5, _ => exact parseMultiplicative_eq_levelStep depth c

/-- Where the blanks end at a character that starts none of its operators, a loop returns its
left operand there. -/
theorem restLevel_pass {depth j : Nat} {c : Cursor} {left : Typed} {ch : Char} {tl : List Char}
    (hc : c.rest.dropWhile isBlank = ch :: tl) (hch : ch ∉ levelHeads j) :
    restLevel depth j c left = .ok (left, c.skip) := by
  have hs : c.skip.1.rest = ch :: tl := by rw [Cursor.skip_rest, hc]
  have hne : ∀ a ∈ levelHeads j, a ≠ ch := fun a ha h => hch (h ▸ ha)
  -- the eating function of each level finds none of its operators
  match j with
  | 0 =>
    have hnone : eatLogical c.skip.1 .or "||" "or" = none :=
      eatLogical_eq_none (Cursor.eatOperator_cons_ne rfl hs (hne '|' (by simp [levelHeads])))
        (Cursor.eatKeyword_cons_ne rfl hs (hne 'o' (by simp [levelHeads])))
    exact (orRest_eq_operandStep depth c left).trans (operandStep_of_eat_none hnone)
  | 1 =>
    have hnone : eatLogical c.skip.1 .and "&&" "and" = none :=
      eatLogical_eq_none (Cursor.eatOperator_cons_ne rfl hs (hne '&' (by simp [levelHeads])))
        (Cursor.eatKeyword_cons_ne rfl hs (hne 'a' (by simp [levelHeads])))
    exact (andRest_eq_operandStep depth c left).trans (operandStep_of_eat_none hnone)
  | 2 =>
    have hnone : eatBinary c.skip.1 [(.eq, "==", []), (.ne, "!=", [])] = none := by
      apply eatBinary_eq_none
      simp only [List.mem_cons, List.not_mem_nil, or_false, forall_eq_or_imp, forall_eq]
      exact ⟨Cursor.eatOperator_cons_ne rfl hs (hne '=' (by simp [levelHeads])),
        Cursor.eatOperator_cons_ne rfl hs (hne '!' (by simp [levelHeads]))⟩
    show equalityRest depth c left = _
    rw [equalityRest]
    rcases hsk : c.skip with ⟨s, hs'⟩
    rw [hsk] at hnone
    simp only [hnone]
  | 3 =>
    have hnone : eatBinary c.skip.1
        [(.le, "<=", []), (.ge, ">=", []), (.lt, "<", []), (.gt, ">", [])] = none := by
      apply eatBinary_eq_none
      simp only [List.mem_cons, List.not_mem_nil, or_false, forall_eq_or_imp, forall_eq]
      exact ⟨Cursor.eatOperator_cons_ne rfl hs (hne '<' (by simp [levelHeads])),
        Cursor.eatOperator_cons_ne rfl hs (hne '>' (by simp [levelHeads])),
        Cursor.eatOperator_cons_ne rfl hs (hne '<' (by simp [levelHeads])),
        Cursor.eatOperator_cons_ne rfl hs (hne '>' (by simp [levelHeads]))⟩
    exact (comparisonRest_eq_operandStep depth c left).trans (operandStep_of_eat_none hnone)
  | 4 =>
    have hnone : eatBinary c.skip.1 [(.add, "+", []), (.sub, "-", [])] = none := by
      apply eatBinary_eq_none
      simp only [List.mem_cons, List.not_mem_nil, or_false, forall_eq_or_imp, forall_eq]
      exact ⟨Cursor.eatOperator_cons_ne rfl hs (hne '+' (by simp [levelHeads])),
        Cursor.eatOperator_cons_ne rfl hs (hne '-' (by simp [levelHeads]))⟩
    exact (additiveRest_eq_operandStep depth c left).trans (operandStep_of_eat_none hnone)
  | j + 5 =>
    have hnone : eatBinary c.skip.1 [(.mul, "*", []), (.div, "/", [])] = none := by
      apply eatBinary_eq_none
      simp only [List.mem_cons, List.not_mem_nil, or_false, forall_eq_or_imp, forall_eq]
      exact ⟨Cursor.eatOperator_cons_ne rfl hs (hne '*' (by simp [levelHeads])),
        Cursor.eatOperator_cons_ne rfl hs (hne '/' (by simp [levelHeads]))⟩
    exact (multiplicativeRest_eq_operandStep depth c left).trans (operandStep_of_eat_none hnone)

/-- A closing parenthesis, a comma or a semicolon starts no operator. -/
theorem not_mem_levelHeads {ch : Char} (hch : ch = ')' ∨ ch = ',' ∨ ch = ';') (j : Nat) :
    ch ∉ levelHeads j := by
  match j with
  | 0 | 1 | 2 | 3 | 4 | _ + 5 => rcases hch with rfl | rfl | rfl <;> simp [levelHeads]

/-- The operators of different levels start with different characters. -/
theorem head_symbol_mem_levelHeads (op : BinaryOp) {j : Nat} (hj : j < 6) :
    op.symbol.toList.head? ∈ (levelHeads j).map some ↔ j = op.level := by
  match j, hj with
  | 0, _ | 1, _ | 2, _ | 3, _ | 4, _ | 5, _ => cases op <;> decide

theorem dropWhile_isBlank_cons {ch : Char} {tl : List Char} (h : isBlank ch = false) :
    (ch :: tl).dropWhile isBlank = ch :: tl := by
  simp [h]

/-- Passing the loops from level `m` down to level `i`: where the blanks end, the rest starts
with a character that none of these levels reads, so each loop hands its operand on there. -/
theorem readsBack_down {depth : Nat} {c : Cursor} {t : Typed} {ρ : List Char} {k : Nat}
    {fits : Prop} {ch : Char} {tl : List Char} (hρ : ρ.dropWhile isBlank = ch :: tl) :
    ∀ n i, i + n ≤ 6 → (∀ j, i ≤ j → j < i + n → ch ∉ levelHeads j) →
      ReadsBack t ρ k fits (parseLevel depth (i + n) c) →
      ReadsBack t (if n = 0 then ρ else ch :: tl) k fits (parseLevel depth i c)
  | 0, i, _, _, h => h
  | n + 1, i, hi, hch, h => by
    have ih := readsBack_down hρ n (i + 1) (by omega) (fun j hj hjn => hch j (by omega)
      (by omega)) (by rwa [show i + 1 + n = i + (n + 1) by omega])
    rw [parseLevel_of_lt (by omega)]
    rcases ho : parseLevel depth (i + 1) c with err | ⟨t', d, hd⟩
    · rw [ho] at ih
      exact ih
    · rw [ho] at ih
      obtain ⟨hfits, rfl, hrest, hops⟩ := ih
      -- where the blanks end the level's loop finds nothing of its own
      have hdrop : d.rest.dropWhile isBlank = ch :: tl := by
        rw [hrest]
        split
        · exact hρ
        · have hblank : isBlank ch = false := by
            have := List.head?_dropWhile_not isBlank ρ
            rw [hρ] at this
            simpa using this
          exact dropWhile_isBlank_cons hblank
      simp only [levelStep_ok]
      rw [restLevel_pass hdrop (hch i le_rfl (by omega)), readsBack_widen]
      exact ⟨hfits, rfl, by simp only [Cursor.skip_rest, hdrop, if_neg (Nat.succ_ne_zero n)],
        hops⟩

/-- From level `m` to a looser level `i`, over a closing character. -/
theorem readsBack_parseLevel {depth : Nat} {c : Cursor} {t : Typed} {ρ : List Char} {k : Nat}
    {fits : Prop} {ch : Char} {tl : List Char} (hρ : ρ = ch :: tl)
    (hch : ch = ')' ∨ ch = ',' ∨ ch = ';') {m i : Nat} (hm : m ≤ 6) (hi : i ≤ m)
    (h : ReadsBack t ρ k fits (parseLevel depth m c)) :
    ReadsBack t ρ k fits (parseLevel depth i c) := by
  have hblank : isBlank ch = false := by rcases hch with rfl | rfl | rfl <;> decide
  have hdrop : ρ.dropWhile isBlank = ch :: tl := by rw [hρ, dropWhile_isBlank_cons hblank]
  have hm' : ReadsBack t ρ k fits (parseLevel depth (i + (m - i)) c) := by
    rwa [show i + (m - i) = m by omega]
  have hdown := readsBack_down hdrop (m - i) i (by omega)
    (fun j _ _ => not_mem_levelHeads hch j) hm'
  split at hdown
  · exact hdown
  · rwa [← hρ] at hdown

/-- A binary level after its tighter level: the tighter level reads the left operand, and the
loop, started where it stopped, reads the rest. -/
theorem readsBack_level {depth i : Nat} (hi : i < 6) {c : Cursor} {t₁ t₂ : Typed}
    {ρ₁ ρ₂ : List Char} {k₁ k₂ : Nat} {fits₁ fits₂ : Prop}
    (h₁ : ReadsBack t₁ ρ₁ k₁ fits₁ (parseLevel depth (i + 1) c))
    (h₂ : ∀ d : Cursor, d.rest = ρ₁ → d.operands = k₁ → fits₁ →
      ReadsBack t₂ ρ₂ k₂ fits₂ (restLevel depth i d t₁))
    (hfits : fits₂ → fits₁) : ReadsBack t₂ ρ₂ k₂ fits₂ (parseLevel depth i c) := by
  rw [parseLevel_of_lt hi]
  rcases ho : parseLevel depth (i + 1) c with err | ⟨t', d, hd⟩
  · rw [ho] at h₁
    exact ⟨fun h => h₁.1 (hfits h), h₁.2⟩
  · rw [ho] at h₁
    obtain ⟨hf, rfl, hrest, hk⟩ := h₁
    rw [levelStep_ok, readsBack_widen]
    exact h₂ d hrest hk hf

/-- The eating function of each binary level. -/
def levelEat : Nat → (s : Cursor) → Option (BinaryOp × s.Ahead)
  | 0 => fun s => eatLogical s .or "||" "or"
  | 1 => fun s => eatLogical s .and "&&" "and"
  | 2 => fun s => eatBinary s [(.eq, "==", []), (.ne, "!=", [])]
  | 3 => fun s => eatBinary s [(.le, "<=", []), (.ge, ">=", []), (.lt, "<", []), (.gt, ">", [])]
  | 4 => fun s => eatBinary s [(.add, "+", []), (.sub, "-", [])]
  | _ => fun s => eatBinary s [(.mul, "*", []), (.div, "/", [])]

/-- A printed operator followed by a blank is read by its level as that operator: a one-character
comparison is not taken for the start of `<=` or `>=`. -/
theorem levelEat_symbol (op : BinaryOp) {s : Cursor} {tail : List Char}
    (hs : s.rest = op.symbol.toList ++ ' ' :: tail) :
    ∃ s2 h2, levelEat op.level s = some (op, ⟨s2, h2⟩) ∧ s2.rest = ' ' :: tail ∧
      s2.operands = s.operands := by
  cases op <;>
    simp [levelEat, BinaryOp.level, BinaryOp.symbol, eatLogical, eatBinary, Cursor.eatOperator,
      Cursor.eat, Cursor.past, hs, List.isPrefixOf]

/-- What the loop of an operator's level checks of the operand types, and the type of the
joined tree: bools into a bool for `||` and `&&`, two operands of one type into a bool for `==`
and `!=`, numbers into a bool for comparisons and numbers into a number for arithmetic. -/
def Joins (op : BinaryOp) (τl τr τ : ValueType) : Prop :=
  match op.family with
  | .logical => τl = .bool ∧ τr = .bool ∧ τ = .bool
  | .equality => τl = τr ∧ τ = .bool
  | .comparison => τl = .number ∧ τr = .number ∧ τ = .bool
  | .arithmetic => τl = .number ∧ τr = .number ∧ τ = .number

/-- An operand loop that checks both operands against `σ`, at its own operator: it reads the
right operand and, both checks passing, goes on with the joined tree. -/
theorem loop_readsBack {c : Cursor} {left : Typed} {op₀ : BinaryOp} {r₀ : Expr}
    {tail ρ : List Char} {k : Nat} {fits : Prop}
    (eat : (s : Cursor) → Option (BinaryOp × s.Ahead)) (operand : (s : Cursor) → Outcome s Typed)
    (loop : (d : Cursor) → Typed → Outcome d Typed) (σ τ : ValueType)
    (heat : ∀ s : Cursor, s.rest = c.rest.dropWhile isBlank → s.operands = c.operands →
      ∃ s2 h2, eat s = some (op₀, ⟨s2, h2⟩) ∧ s2.rest = ' ' :: tail ∧
        s2.operands = c.operands)
    (hleft : left.2 = σ)
    (hop : ∀ s2 : Cursor, s2.rest = ' ' :: tail → s2.operands = c.operands →
      ReadsBack (r₀, σ) ρ k fits (operand s2))
    (hloop : ∀ e : Cursor, e.rest = ρ → e.operands = k →
      ReadsBack (.binary op₀ left.1 r₀, τ) ρ k True (loop e (.binary op₀ left.1 r₀, τ))) :
    ReadsBack (.binary op₀ left.1 r₀, τ) ρ k fits (operandStep eat operand loop σ τ c left) := by
  rw [operandStep_eq_match]
  rcases hsk : c.skip with ⟨s, hs⟩
  have hsc : s = c.skip.1 := by rw [hsk]
  obtain ⟨s2, h2, heat', hs2, hops⟩ := heat s (by rw [hsc, Cursor.skip_rest])
    (by rw [hsc, Cursor.skip_operands])
  dsimp only
  rw [heat']
  dsimp only
  have hr := hop s2 hs2 hops
  rcases hpar : operand s2 with err | ⟨⟨r, rt⟩, e, he⟩
  · rw [hpar] at hr
    exact hr
  · rw [hpar] at hr
    obtain ⟨hfits, hrt, hrest, hk⟩ := hr
    obtain ⟨rfl, hσ⟩ := Prod.mk.inj hrt
    -- both operands have the level's operand type, so both checks pass
    have hreq : ∀ pos, require pos op₀ σ σ = .ok () := fun pos => if_pos rfl
    dsimp only
    rw [hleft, hσ, hreq]
    dsimp only
    rw [readsBack_widen]
    exact (hloop e hrest hk).congr rfl (iff_of_true trivial hfits)

/-- The `==` and `!=` loop at its own operator: it reads the right operand and, the two types
agreeing, goes on with the joined tree. -/
theorem equalityRest_readsBack {depth : Nat} {c : Cursor} {left : Typed} {op₀ : BinaryOp}
    {r₀ : Expr} {tail ρ : List Char} {k : Nat} {fits : Prop}
    (heat : ∀ s : Cursor, s.rest = c.rest.dropWhile isBlank → s.operands = c.operands →
      ∃ s2 h2, eatBinary s [(.eq, "==", []), (.ne, "!=", [])] = some (op₀, ⟨s2, h2⟩) ∧
        s2.rest = ' ' :: tail ∧ s2.operands = c.operands)
    (hop : ∀ s2 : Cursor, s2.rest = ' ' :: tail → s2.operands = c.operands →
      ReadsBack (r₀, left.2) ρ k fits (parseComparison depth s2))
    (hloop : ∀ e : Cursor, e.rest = ρ → e.operands = k →
      ReadsBack (.binary op₀ left.1 r₀, .bool) ρ k True
        (equalityRest depth e (.binary op₀ left.1 r₀, .bool))) :
    ReadsBack (.binary op₀ left.1 r₀, .bool) ρ k fits (equalityRest depth c left) := by
  rw [equalityRest]
  rcases hsk : c.skip with ⟨s, hs⟩
  have hsc : s = c.skip.1 := by rw [hsk]
  obtain ⟨s2, h2, heat', hs2, hops⟩ := heat s (by rw [hsc, Cursor.skip_rest])
    (by rw [hsc, Cursor.skip_operands])
  dsimp only
  rw [heat']
  dsimp only
  have hr := hop s2 hs2 hops
  rcases hpar : parseComparison depth s2 with err | ⟨⟨r, rt⟩, e, he⟩
  · rw [hpar] at hr
    exact hr
  · rw [hpar] at hr
    obtain ⟨hfits, hrt, hrest, hk⟩ := hr
    obtain ⟨rfl, hσ⟩ := Prod.mk.inj hrt
    dsimp only
    rw [if_pos hσ.symm, readsBack_widen]
    exact (hloop e hrest hk).congr rfl (iff_of_true trivial hfits)

/-- The loop of an operator's level, standing at the printed operator: it reads the right
operand one level tighter, checks the two types and stops at the closing character after it. -/
theorem restLevel_consume {depth : Nat} {c : Cursor} {left : Typed} {op : BinaryOp} {r : Expr}
    {τr τ : ValueType} {tail ρ : List Char} {k : Nat} {fits : Prop} {ch : Char}
    {tl : List Char} (hc : c.rest.dropWhile isBlank = op.symbol.toList ++ ' ' :: tail)
    (hjoin : Joins op left.2 τr τ) (hρ : ρ = ch :: tl) (hch : ch = ')' ∨ ch = ',' ∨ ch = ';')
    (hr : ∀ s2 : Cursor, s2.rest = ' ' :: tail → s2.operands = c.operands →
      ReadsBack (r, τr) ρ k fits (parseLevel depth (op.level + 1) s2)) :
    ReadsBack (.binary op left.1 r, τ) ρ k fits (restLevel depth op.level c left) := by
  have heat : ∀ s : Cursor, s.rest = c.rest.dropWhile isBlank → s.operands = c.operands →
      ∃ s2 h2, levelEat op.level s = some (op, ⟨s2, h2⟩) ∧ s2.rest = ' ' :: tail ∧
        s2.operands = c.operands := by
    intro s hs hops
    obtain ⟨s2, h2, he, hr2, ho⟩ := levelEat_symbol op (hs.trans hc)
    exact ⟨s2, h2, he, hr2, ho.trans hops⟩
  -- after the right operand every loop meets the closing character and stops
  have hstop : ∀ (j : Nat) (t : Typed) (e : Cursor), e.rest = ρ → e.operands = k →
      ReadsBack t ρ k True (restLevel depth j e t) := by
    intro j t e he hk
    have hblank : isBlank ch = false := by rcases hch with rfl | rfl | rfl <;> decide
    have hdrop : e.rest.dropWhile isBlank = ch :: tl := by
      rw [he, hρ, dropWhile_isBlank_cons hblank]
    rw [restLevel_pass hdrop (not_mem_levelHeads hch j)]
    exact ⟨trivial, rfl, by rw [Cursor.skip_rest, hdrop, hρ], hk⟩
  obtain ⟨l, τl⟩ := left
  match op, hjoin with
  | .or, hjoin =>
    obtain ⟨rfl, rfl, rfl⟩ : τl = .bool ∧ τr = .bool ∧ τ = .bool := hjoin
    show ReadsBack _ _ _ _ (orRest depth c _)
    rw [orRest_eq_operandStep]
    exact loop_readsBack (fun s => eatLogical s .or "||" "or") (parseAnd depth) (orRest depth)
      .bool .bool heat rfl hr (hstop 0 _)
  | .and, hjoin =>
    obtain ⟨rfl, rfl, rfl⟩ : τl = .bool ∧ τr = .bool ∧ τ = .bool := hjoin
    show ReadsBack _ _ _ _ (andRest depth c _)
    rw [andRest_eq_operandStep]
    exact loop_readsBack (fun s => eatLogical s .and "&&" "and") (parseEquality depth)
      (andRest depth) .bool .bool heat rfl hr (hstop 1 _)
  | .eq, hjoin | .ne, hjoin =>
    obtain ⟨rfl, rfl⟩ : τl = τr ∧ τ = .bool := hjoin
    exact equalityRest_readsBack heat hr (hstop 2 _)
  | .lt, hjoin | .le, hjoin | .gt, hjoin | .ge, hjoin =>
    obtain ⟨rfl, rfl, rfl⟩ : τl = .number ∧ τr = .number ∧ τ = .bool := hjoin
    show ReadsBack _ _ _ _ (comparisonRest depth c _)
    rw [comparisonRest_eq_operandStep]
    exact loop_readsBack
      (fun s => eatBinary s [(.le, "<=", []), (.ge, ">=", []), (.lt, "<", []), (.gt, ">", [])])
      (parseAdditive depth) (comparisonRest depth) .number .bool heat rfl hr (hstop 3 _)
  | .add, hjoin | .sub, hjoin =>
    -- the arithmetic loops give the joined tree the left operand's type, a number
    obtain ⟨rfl, rfl, rfl⟩ : τl = .number ∧ τr = .number ∧ τ = .number := hjoin
    show ReadsBack _ _ _ _ (additiveRest depth c _)
    rw [additiveRest_eq_operandStep]
    exact loop_readsBack (fun s => eatBinary s [(.add, "+", []), (.sub, "-", [])])
      (parseMultiplicative depth) (additiveRest depth) .number .number heat rfl hr (hstop 4 _)
  | .mul, hjoin | .div, hjoin =>
    obtain ⟨rfl, rfl, rfl⟩ : τl = .number ∧ τr = .number ∧ τ = .number := hjoin
    show ReadsBack _ _ _ _ (multiplicativeRest depth c _)
    rw [multiplicativeRest_eq_operandStep]
    exact loop_readsBack (fun s => eatBinary s [(.mul, "*", []), (.div, "/", [])])
      (parseUnary depth) (multiplicativeRest depth) .number .number heat rfl hr (hstop 5 _)

end Strategy
end Backtest
