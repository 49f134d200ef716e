import Mathlib
import Backtest.Proofs.Strategy.Levels
import Backtest.Proofs.Decimal.Rounding
/-!
# Proofs.Strategy.ParseLiterals — the trees the parser builds, and their literals

The parser builds its trees from a few pieces only: number literals read from digits and one
point, string literals cut at their first quote, keywords and variables, and nodes over trees it
has built, with the accessor names and percentiles checked. A property of trees that holds of
each piece and is kept by each node (`Builds P`) holds of every tree a parsing function
returns. The proof is a strong induction on the parser's termination measure, one step lemma
per parsing function, as in `Proofs.Strategy.ParseTyping`; here it is stated once for every
such property.

The property this module needs is `Expr.SourceLiterals`: the literals of a parsed tree are the
literals source text can spell. A number literal has a clear sign bit, since the parser reads
a minus sign as an operator and never into a literal; a text literal holds no quote; and a
percentile is never a number literal, since a literal percentile becomes the text of its label.

* `Builds P`, `ParsesBelow P n` and `parsesBelow` — the induction, for every property `P`;
* `parse_builds` — a compiled program's tree has every property the parser builds;
* `parse_sourceLiterals` — its literals are source literals.
-/

namespace Backtest
namespace Strategy

/-! ## Properties the parser builds -/

/-- A property of trees that the parser builds: it holds of the literals and variables as the
parser reads them, and of every node the parser puts over trees that have it, after the checks
an accessor makes of its name and percentile. -/
structure Builds (P : Expr → Prop) : Prop where
  number : ∀ (l : List Char) x,
    Decimal.readFloat (String.ofList (numberChars false l)) = .ok x → P (.number x)
  text : ∀ body : List Char, P (.text (String.ofList (body.takeWhile (· != '"'))))
  bool : ∀ b, P (.bool b)
  instrument : P .instrument
  time : P .time
  unary : ∀ op e, P e → P (.unary op e)
  binary : ∀ op l r, P l → P r → P (.binary op l r)
  indicator : ∀ pos n n' i t, checkIndicatorName pos n = .ok n' → P n → P i → P t →
    P (.indicator n' i t)
  quantile : ∀ pos pos' n n' p p' i t, checkIndicatorName pos n = .ok n' →
    checkPercentile pos' p = .ok p' → P n → P p → P i → P t → P (.quantile n' p' i t)

/-- An outcome that is a failure or a tree with the property `P`, whatever else it carries. -/
def Yields (P : Expr → Prop) {α : Type} : Except ParseError (Typed × α) → Prop
  | .ok ((e, _), _) => P e
  | .error _ => True

section Builds

variable {P : Expr → Prop}

@[simp] theorem yields_widen {c d : Cursor} (h : d.rest.length ≤ c.rest.length)
    (o : Outcome d Typed) : Yields P (o.widen h) ↔ Yields P o := by
  rcases o with e | ⟨⟨x, τ⟩, ⟨d', hd'⟩⟩ <;> rfl

theorem parseNumber_yields (hP : Builds P) (c : Cursor) : Yields P (parseNumber c) := by
  unfold parseNumber
  dsimp only
  split
  · split
    · split
      · rename_i x hread
        exact hP.number c.rest x hread
      · trivial
    · trivial
  · trivial

theorem parseString_yields (hP : Builds P) (c : Cursor) : Yields P (parseString c) := by
  unfold parseString
  split
  · rename_i body _
    dsimp only
    split
    · split
      · exact hP.text body
      · trivial
    · trivial
  · trivial

/-! ## The induction -/

/-- Every parsing function yields `P` where its measure is below `n`; an operand loop, from a
left operand that has `P`. -/
structure ParsesBelow (P : Expr → Prop) (n : Nat) : Prop where
  logicalOr : ∀ depth (c : Cursor), c.rest.length * 32 + 15 < n → Yields P (parseOr depth c)
  orLoop : ∀ depth (c : Cursor) (left : Typed), c.rest.length * 32 + 14 < n → P left.1 →
    Yields P (orRest depth c left)
  logicalAnd : ∀ depth (c : Cursor), c.rest.length * 32 + 13 < n → Yields P (parseAnd depth c)
  andLoop : ∀ depth (c : Cursor) (left : Typed), c.rest.length * 32 + 12 < n → P left.1 →
    Yields P (andRest depth c left)
  equality : ∀ depth (c : Cursor), c.rest.length * 32 + 11 < n →
    Yields P (parseEquality depth c)
  equalityLoop : ∀ depth (c : Cursor) (left : Typed), c.rest.length * 32 + 10 < n → P left.1 →
    Yields P (equalityRest depth c left)
  comparison : ∀ depth (c : Cursor), c.rest.length * 32 + 9 < n →
    Yields P (parseComparison depth c)
  comparisonLoop : ∀ depth (c : Cursor) (left : Typed), c.rest.length * 32 + 8 < n →
    P left.1 → Yields P (comparisonRest depth c left)
  additive : ∀ depth (c : Cursor), c.rest.length * 32 + 7 < n →
    Yields P (parseAdditive depth c)
  additiveLoop : ∀ depth (c : Cursor) (left : Typed), c.rest.length * 32 + 6 < n → P left.1 →
    Yields P (additiveRest depth c left)
  multiplicative : ∀ depth (c : Cursor), c.rest.length * 32 + 5 < n →
    Yields P (parseMultiplicative depth c)
  multiplicativeLoop : ∀ depth (c : Cursor) (left : Typed), c.rest.length * 32 + 4 < n →
    P left.1 → Yields P (multiplicativeRest depth c left)
  unary : ∀ depth (c : Cursor), c.rest.length * 32 + 3 < n → Yields P (parseUnary depth c)
  unaryOperand : ∀ depth at_ (c : Cursor), c.rest.length * 32 + 2 < n →
    Yields P (parseUnaryOperand depth at_ c)
  primary : ∀ depth (c : Cursor), c.rest.length * 32 + 1 < n → Yields P (parsePrimary depth c)
  word : ∀ depth (c s : Cursor) (hs : s.rest.length ≤ c.rest.length), c.rest.length * 32 < n →
    Yields P (parseWord depth c s hs)
  argument : ∀ depth (c : Cursor) (types : List ValueType) (what : String),
    c.rest.length * 32 + 16 < n → Yields P (parseArgument depth c types what)
  indicatorCall : ∀ depth (c : Cursor), c.rest.length * 32 + 17 < n →
    Yields P (parseIndicatorCall depth c)
  quantileCall : ∀ depth (c : Cursor), c.rest.length * 32 + 18 < n →
    Yields P (parseQuantileCall depth c)

/-- A binary level hands its first operand to its loop. -/
theorem level_yields {c : Cursor} (operand : Outcome c Typed)
    (loop : (d : Cursor) → Typed → Outcome d Typed) (hop : Yields P operand)
    (hloop : ∀ (d : Cursor) (left : Typed), d.rest.length ≤ c.rest.length → P left.1 →
      Yields P (loop d left)) :
    Yields P (levelStep operand loop) := by
  rcases operand with e | ⟨left, d, hd⟩
  · trivial
  · rw [levelStep_ok, yields_widen]
    exact hloop d left hd hop

/-- An operand loop puts a binary node over its left operand and a right operand read from a
shorter cursor, and goes on with it. -/
theorem loop_yields (hP : Builds P) {c : Cursor} {left : Typed}
    (eat : (s : Cursor) → Option (BinaryOp × s.Ahead)) (operand : (s : Cursor) → Outcome s Typed)
    (loop : (d : Cursor) → Typed → Outcome d Typed) (σ τ : ValueType) (hl : P left.1)
    (hop : ∀ s : Cursor, s.rest.length < c.rest.length → Yields P (operand s))
    (hloop : ∀ (e : Cursor) (l : Typed), e.rest.length < c.rest.length → P l.1 →
      Yields P (loop e l)) :
    Yields P (operandStep eat operand loop σ τ c left) := by
  rw [operandStep_eq_match]
  rcases hsk : c.skip with ⟨s, hs⟩
  dsimp only
  rcases heat : eat s with _ | ⟨op, s2, h2⟩
  · exact hl
  · dsimp only
    rcases hpar : operand s2 with err | ⟨⟨r, rt⟩, e, he⟩
    · trivial
    · have hr : P r := by
        have := hop s2 (by omega)
        rwa [hpar] at this
      dsimp only
      rcases require s.pos op σ left.2 with err | ⟨⟩
      · trivial
      · rcases require s.pos op σ rt with err | ⟨⟩
        · trivial
        · rw [yields_widen]
          exact hloop e _ (by omega) (hP.binary op _ _ hl hr)

section Steps

variable {depth : Nat}

theorem parseOr_yields {c : Cursor} (ih : ParsesBelow P (c.rest.length * 32 + 15)) :
    Yields P (parseOr depth c) := by
  rw [parseOr_eq_levelStep]
  exact level_yields _ (orRest depth) (ih.logicalAnd depth c (by omega))
    fun d left _ hl => ih.orLoop depth d left (by omega) hl

theorem orRest_yields (hP : Builds P) {c : Cursor} (ih : ParsesBelow P (c.rest.length * 32 + 14))
    {left : Typed} (hl : P left.1) : Yields P (orRest depth c left) := by
  rw [orRest_eq_operandStep]
  exact loop_yields hP (fun s => eatLogical s .or "||" "or") (parseAnd depth) (orRest depth)
    .bool .bool hl (fun s _ => ih.logicalAnd depth s (by omega))
    (fun e l _ hl => ih.orLoop depth e l (by omega) hl)

theorem parseAnd_yields {c : Cursor} (ih : ParsesBelow P (c.rest.length * 32 + 13)) :
    Yields P (parseAnd depth c) := by
  rw [parseAnd_eq_levelStep]
  exact level_yields _ (andRest depth) (ih.equality depth c (by omega))
    fun d left _ hl => ih.andLoop depth d left (by omega) hl

theorem andRest_yields (hP : Builds P) {c : Cursor}
    (ih : ParsesBelow P (c.rest.length * 32 + 12)) {left : Typed} (hl : P left.1) :
    Yields P (andRest depth c left) := by
  rw [andRest_eq_operandStep]
  exact loop_yields hP (fun s => eatLogical s .and "&&" "and") (parseEquality depth)
    (andRest depth) .bool .bool hl (fun s _ => ih.equality depth s (by omega))
    (fun e l _ hl => ih.andLoop depth e l (by omega) hl)

theorem parseEquality_yields {c : Cursor} (ih : ParsesBelow P (c.rest.length * 32 + 11)) :
    Yields P (parseEquality depth c) := by
  rw [parseEquality_eq_levelStep]
  exact level_yields _ (equalityRest depth) (ih.comparison depth c (by omega))
    fun d left _ hl => ih.equalityLoop depth d left (by omega) hl

/-- The `==` and `!=` loop checks that its operand types agree rather than a fixed type, so it
does not share the shape of the other loops. -/
theorem equalityRest_yields (hP : Builds P) {c : Cursor}
    (ih : ParsesBelow P (c.rest.length * 32 + 10)) {left : Typed} (hl : P left.1) :
    Yields P (equalityRest depth c left) := by
  rw [equalityRest]
  split
  rename_i s hs _
  split
  · exact hl
  · rename_i op s2 h2 _
    split
    · trivial
    · rename_i r rt e he hpar
      have hr := ih.comparison depth s2 (by omega)
      rw [hpar] at hr
      split
      · rw [yields_widen]
        exact ih.equalityLoop depth e _ (by omega) (hP.binary op _ _ hl hr)
      · trivial

theorem parseComparison_yields {c : Cursor} (ih : ParsesBelow P (c.rest.length * 32 + 9)) :
    Yields P (parseComparison depth c) := by
  rw [parseComparison_eq_levelStep]
  exact level_yields _ (comparisonRest depth) (ih.additive depth c (by omega))
    fun d left _ hl => ih.comparisonLoop depth d left (by omega) hl

theorem comparisonRest_yields (hP : Builds P) {c : Cursor}
    (ih : ParsesBelow P (c.rest.length * 32 + 8)) {left : Typed} (hl : P left.1) :
    Yields P (comparisonRest depth c left) := by
  rw [comparisonRest_eq_operandStep]
  exact loop_yields hP
    (fun s => eatBinary s [(.le, "<=", []), (.ge, ">=", []), (.lt, "<", []), (.gt, ">", [])])
    (parseAdditive depth) (comparisonRest depth) .number .bool hl
    (fun s _ => ih.additive depth s (by omega))
    (fun e l _ hl => ih.comparisonLoop depth e l (by omega) hl)

theorem parseAdditive_yields {c : Cursor} (ih : ParsesBelow P (c.rest.length * 32 + 7)) :
    Yields P (parseAdditive depth c) := by
  rw [parseAdditive_eq_levelStep]
  exact level_yields _ (additiveRest depth) (ih.multiplicative depth c (by omega))
    fun d left _ hl => ih.additiveLoop depth d left (by omega) hl

theorem additiveRest_yields (hP : Builds P) {c : Cursor}
    (ih : ParsesBelow P (c.rest.length * 32 + 6)) {left : Typed} (hl : P left.1) :
    Yields P (additiveRest depth c left) := by
  rw [additiveRest_eq_operandStep]
  exact loop_yields hP (fun s => eatBinary s [(.add, "+", []), (.sub, "-", [])])
    (parseMultiplicative depth) (additiveRest depth) .number left.2 hl
    (fun s _ => ih.multiplicative depth s (by omega))
    (fun e l _ hl => ih.additiveLoop depth e l (by omega) hl)

theorem parseMultiplicative_yields {c : Cursor} (ih : ParsesBelow P (c.rest.length * 32 + 5)) :
    Yields P (parseMultiplicative depth c) := by
  rw [parseMultiplicative_eq_levelStep]
  exact level_yields _ (multiplicativeRest depth) (ih.unary depth c (by omega))
    fun d left _ hl => ih.multiplicativeLoop depth d left (by omega) hl

theorem multiplicativeRest_yields (hP : Builds P) {c : Cursor}
    (ih : ParsesBelow P (c.rest.length * 32 + 4)) {left : Typed} (hl : P left.1) :
    Yields P (multiplicativeRest depth c left) := by
  rw [multiplicativeRest_eq_operandStep]
  exact loop_yields hP (fun s => eatBinary s [(.mul, "*", []), (.div, "/", [])])
    (parseUnary depth) (multiplicativeRest depth) .number left.2 hl
    (fun s _ => ih.unary depth s (by omega))
    (fun e l _ hl => ih.multiplicativeLoop depth e l (by omega) hl)

theorem parseUnary_yields {c : Cursor} (ih : ParsesBelow P (c.rest.length * 32 + 3)) :
    Yields P (parseUnary depth c) := by
  rw [parseUnary]
  split
  rename_i s hs _
  split
  · trivial
  · split
    · trivial
    · rw [yields_widen]
      exact ih.unaryOperand (depth + 1) s.pos ⟨s.rest, s.pos, s.operands + 1⟩
        (show s.rest.length * 32 + 2 < _ by omega)

theorem parseUnaryOperand_yields (hP : Builds P) {at_ : Nat} {c : Cursor}
    (ih : ParsesBelow P (c.rest.length * 32 + 2)) :
    Yields P (parseUnaryOperand depth at_ c) := by
  rw [parseUnaryOperand]
  split
  rename_i s hs _
  split
  · rw [yields_widen]
    exact ih.primary depth s (by omega)
  · rename_i op s2 h2 _
    split
    · trivial
    · rename_i x ty d hd hpar
      have hx := ih.unary depth s2 (by omega)
      rw [hpar] at hx
      dsimp only
      -- the operand's type, checked against what the operator expects, only decides between
      -- the node and a failure
      split <;> split
      · exact hP.unary op x hx
      · trivial
      · exact hP.unary op x hx
      · trivial

/-- A parenthesised expression is the tree it holds; literals and words are read as pieces. -/
theorem parsePrimary_yields (hP : Builds P) {c : Cursor}
    (ih : ParsesBelow P (c.rest.length * 32 + 1)) : Yields P (parsePrimary depth c) := by
  rw [parsePrimary]
  split
  rename_i s hs _
  split
  · rename_i s2 h2 _
    split
    · trivial
    · rename_i inner d hd hpar
      have hin := ih.logicalOr depth s2 (by omega)
      rw [hpar] at hin
      split
      · trivial
      · exact hin
  · split
    · rw [yields_widen]
      exact parseString_yields hP s
    · split
      · rw [yields_widen]
        exact parseNumber_yields hP s
      · exact ih.word depth c s hs (by omega)
    · exact ih.word depth c s hs (by omega)

theorem parseWord_yields (hP : Builds P) {c s : Cursor} {hs : s.rest.length ≤ c.rest.length}
    (ih : ParsesBelow P (c.rest.length * 32)) : Yields P (parseWord depth c s hs) := by
  rw [parseWord]
  dsimp only
  split
  · trivial
  · rename_i s2 h2 _
    split
    · exact hP.bool true
    · exact hP.bool false
    · exact hP.instrument
    · exact hP.instrument
    · exact hP.time
    · rw [yields_widen]
      exact ih.indicatorCall depth s2 (by omega)
    · rw [yields_widen]
      exact ih.quantileCall depth s2 (by omega)
    · trivial

theorem parseArgument_yields {c : Cursor} {types : List ValueType} {what : String}
    (ih : ParsesBelow P (c.rest.length * 32 + 16)) :
    Yields P (parseArgument depth c types what) := by
  rw [parseArgument]
  split
  rename_i s hs _
  split
  · trivial
  · rename_i x ty d hd hpar
    have hx := ih.logicalOr depth s (by omega)
    rw [hpar] at hx
    split
    · exact hx
    · trivial

/-- The argument an accessor reads has `P`. -/
theorem argument_of_yields {c : Cursor} {types : List ValueType} {what : String} {x : Expr}
    {τ : ValueType} {d : c.After} (h : Yields P (parseArgument depth c types what))
    (hx : parseArgument depth c types what = .ok ((x, τ), d)) : P x := by
  rw [hx] at h
  exact h

theorem parseIndicatorCall_yields (hP : Builds P) {c : Cursor}
    (ih : ParsesBelow P (c.rest.length * 32 + 17)) : Yields P (parseIndicatorCall depth c) := by
  rw [parseIndicatorCall]
  split
  · trivial
  · rename_i c1 h1 _
    dsimp only
    split
    · trivial
    · rename_i name _ c2 h2 hname
      have hn := argument_of_yields (ih.argument depth c1 [.text] _ (by omega)) hname
      split
      · trivial
      · trivial
      · rename_i name' c3 h3 hcheck _
        split
        · trivial
        · rename_i inst _ c4 h4 hinst
          have hi := argument_of_yields (ih.argument depth c3 [.text] _ (by omega)) hinst
          split
          · trivial
          · rename_i c5 h5 _
            split
            · trivial
            · rename_i t _ c6 h6 htime
              have ht := argument_of_yields (ih.argument depth c5 [.number] _ (by omega)) htime
              split
              · trivial
              · exact hP.indicator _ name name' inst t hcheck hn hi ht

theorem parseQuantileCall_yields (hP : Builds P) {c : Cursor}
    (ih : ParsesBelow P (c.rest.length * 32 + 18)) : Yields P (parseQuantileCall depth c) := by
  rw [parseQuantileCall]
  split
  · trivial
  · rename_i c1 h1 _
    dsimp only
    split
    · trivial
    · rename_i name _ c2 h2 hname
      have hn := argument_of_yields (ih.argument depth c1 [.text] _ (by omega)) hname
      split
      · trivial
      · trivial
      · rename_i name' c3 h3 hcheck _
        split
        · trivial
        · rename_i pct _ c4 h4 hpct
          have hp := argument_of_yields (ih.argument depth c3 [.text, .number] _ (by omega)) hpct
          split
          · trivial
          · trivial
          · rename_i pct' c5 h5 hcheckp _
            split
            · trivial
            · rename_i inst _ c6 h6 hinst
              have hi := argument_of_yields (ih.argument depth c5 [.text] _ (by omega)) hinst
              split
              · trivial
              · rename_i c7 h7 _
                split
                · trivial
                · rename_i t _ c8 h8 htime
                  have ht := argument_of_yields
                    (ih.argument depth c7 [.number] _ (by omega)) htime
                  split
                  · trivial
                  · exact hP.quantile _ _ name name' pct pct' inst t hcheck hcheckp hn hp hi ht

end Steps

/-- Every parsing function yields `P`, from every cursor: a strong induction on the termination
measure, each function's step lemma using the functions below it. -/
theorem parsesBelow (hP : Builds P) (n : Nat) : ParsesBelow P n := by
  induction n using Nat.strongRecOn with
  | ind n ih =>
    exact ⟨fun _ _ h => parseOr_yields (ih _ h),
      fun _ _ _ h hl => orRest_yields hP (ih _ h) hl,
      fun _ _ h => parseAnd_yields (ih _ h),
      fun _ _ _ h hl => andRest_yields hP (ih _ h) hl,
      fun _ _ h => parseEquality_yields (ih _ h),
      fun _ _ _ h hl => equalityRest_yields hP (ih _ h) hl,
      fun _ _ h => parseComparison_yields (ih _ h),
      fun _ _ _ h hl => comparisonRest_yields hP (ih _ h) hl,
      fun _ _ h => parseAdditive_yields (ih _ h),
      fun _ _ _ h hl => additiveRest_yields hP (ih _ h) hl,
      fun _ _ h => parseMultiplicative_yields (ih _ h),
      fun _ _ _ h hl => multiplicativeRest_yields hP (ih _ h) hl,
      fun _ _ h => parseUnary_yields (ih _ h),
      fun _ _ _ h => parseUnaryOperand_yields hP (ih _ h),
      fun _ _ h => parsePrimary_yields hP (ih _ h),
      fun _ _ _ _ h => parseWord_yields hP (ih _ h),
      fun _ _ _ _ h => parseArgument_yields (ih _ h),
      fun _ _ h => parseIndicatorCall_yields hP (ih _ h),
      fun _ _ h => parseQuantileCall_yields hP (ih _ h)⟩

/-- A compiled program's tree has every property the parser builds. -/
theorem parse_builds (hP : Builds P) {p : String} {e : Expr} (h : parse p = .ok e) : P e := by
  have hraw : parseRaw p = .ok e := by
    unfold parse at h
    split at h
    · rename_i e' hraw
      cases h
      exact hraw
    · cases h
  unfold parseRaw at hraw
  dsimp only at hraw
  split at hraw
  · cases hraw
  · rename_i x ty d hd hpar
    have hx := (parsesBelow hP (_ + 16)).logicalOr 0
      (⟨p.toList ++ templateClose, 0, 0⟩ : Cursor).skip.1 (Nat.lt_succ_self _)
    rw [hpar] at hx
    -- the closing checks after the expression only pass it on or fail
    split at hraw
    · cases hraw
    · split at hraw
      · cases hraw
      · split at hraw
        · cases hraw
        · split at hraw
          · cases hraw
            exact hx
          · cases hraw

end Builds

/-! ## Source literals -/

namespace Expr

/-- Whether a tree is a number literal. -/
def IsNumber : Expr → Prop
  | number _ => True
  | _ => False

/-- The literals of a tree are literals source text can spell: every number literal has a
clear sign bit, every text literal is free of quotes, and no percentile is a number literal. -/
def SourceLiterals : Expr → Prop
  | number x => x.toBits.toNat < 2 ^ 63
  | text s => '"' ∉ s.toList
  | unary _ e => e.SourceLiterals
  | binary _ l r => l.SourceLiterals ∧ r.SourceLiterals
  | indicator n i t => n.SourceLiterals ∧ i.SourceLiterals ∧ t.SourceLiterals
  | quantile n p i t =>
    ¬ p.IsNumber ∧ n.SourceLiterals ∧ p.SourceLiterals ∧ i.SourceLiterals ∧ t.SourceLiterals
  | _ => True

end Expr

/-- A number literal starts with a digit or a point, never with a minus sign. -/
theorem head_numberChars_ne_minus (b : Bool) (l : List Char) :
    (numberChars b l).head? ≠ some '-' := by
  cases l with
  | nil => cases b <;> simp [numberChars]
  | cons ch r =>
    unfold numberChars
    split_ifs with hdigit hpoint
    · rintro ⟨⟩
      revert hdigit
      decide
    · rintro ⟨⟩
      simp at hpoint
    · simp

/-- No indicator's name holds a quote. -/
theorem quote_not_mem_name (k : Indicator) : '"' ∉ k.name.toList := by
  cases k <;> decide

/-- No percentile label holds a quote. -/
theorem quote_not_mem_label {l : String} (hl : l ∈ Quantile.labels) : '"' ∉ l.toList := by
  revert l
  decide

/-- A checked name is a quote-free text or the argument as it was. -/
theorem checkIndicatorName_sourceLiterals {pos : Nat} {n n' : Expr}
    (h : checkIndicatorName pos n = .ok n') (hn : n.SourceLiterals) : n'.SourceLiterals := by
  unfold checkIndicatorName at h
  split at h
  · split at h
    · rename_i k _
      cases h
      exact quote_not_mem_name k
    · cases h
  · cases h
    exact hn

/-- A checked percentile is a label, or an argument that was no literal at all. -/
theorem checkPercentile_sourceLiterals {pos : Nat} {p p' : Expr}
    (h : checkPercentile pos p = .ok p') (hp : p.SourceLiterals) :
    ¬ p'.IsNumber ∧ p'.SourceLiterals := by
  unfold checkPercentile at h
  dsimp only at h
  split at h
  · rename_i hnone
    cases h
    cases p with
    | number x => simp at hnone
    | _ => exact ⟨id, hp⟩
  · split at h
    · rename_i l _ hmem
      cases h
      exact ⟨id, quote_not_mem_label (by simpa using hmem)⟩
    · cases h

/-- The parser builds source literals: it reads a number from digits and a point only, cuts a
string at its first quote, and turns names and percentiles into canonical texts. -/
theorem builds_sourceLiterals : Builds Expr.SourceLiterals where
  number l x h := Decimal.readFloat_toBits_lt
    (by rw [String.toList_ofList]; exact head_numberChars_ne_minus false l) h
  text body := by
    show '"' ∉ (String.ofList _).toList
    rw [String.toList_ofList]
    intro hmem
    simpa using List.mem_takeWhile_imp hmem
  bool _ := trivial
  instrument := trivial
  time := trivial
  unary _ _ h := h
  binary _ _ _ hl hr := ⟨hl, hr⟩
  indicator _ _ _ _ _ hcheck hn hi ht := ⟨checkIndicatorName_sourceLiterals hcheck hn, hi, ht⟩
  quantile _ _ _ _ _ _ _ _ hcheck hcheckp hn hp hi ht :=
    have hp' := checkPercentile_sourceLiterals hcheckp hp
    ⟨hp'.1, checkIndicatorName_sourceLiterals hcheck hn, hp'.2, hi, ht⟩

/-- A compiled program's literals are source literals. -/
theorem parse_sourceLiterals {p : String} {e : Expr} (h : parse p = .ok e) :
    e.SourceLiterals :=
  parse_builds builds_sourceLiterals h

end Strategy
end Backtest
