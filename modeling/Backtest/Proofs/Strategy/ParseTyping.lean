import Mathlib
import Backtest.Proofs.Strategy.Levels
import Backtest.Proofs.Strategy.Typing
/-!
# Proofs.Strategy.ParseTyping — the parser accepts only well-typed predicates

The parser types every sub-expression as it reads it. Its soundness says that the type it
reports is a type the expression has under `HasType`: every parsing function, from every
cursor, returns a well-typed pair or fails. Together with the soundness of evaluation, a
compiled program never meets a type mismatch at run time.

The parsing functions call each other only where the measure `rest.length * 32 + level` that
makes them terminate goes down. So the proof is a strong induction on that measure, with one
step lemma per function that assumes every function well typed below its own measure.

* `WellTyped o` — the outcome `o` is a failure or an expression with the type it was read with;
* `level_wellTyped`, `loop_wellTyped` — the shape shared by the binary levels and by their
  operand loops, stated once;
* `ParsesTypedBelow n` — every parsing function is well typed where its measure is below `n`,
  and `parsesTypedBelow` proves it of every `n`;
* `parse_hasType` — a compiled program is a bool-typed tree;
* `parse_hasType_evaluate` — and its evaluation never fails on a type.
-/

namespace Backtest
namespace Strategy

/-! ## Typed outcomes -/

/-- An outcome that is a failure or an expression with the type it was read with, whatever
else it carries (a cursor, for the parsing functions). -/
def WellTyped {α : Type} : Except ParseError (Typed × α) → Prop
  | .ok ((e, τ), _) => HasType e τ
  | .error _ => True

/-- An outcome that is a failure or an expression with the type it was read with, one of
`types`. -/
def WellTypedIn {α : Type} (types : List ValueType) : Except ParseError (Typed × α) → Prop
  | .ok ((e, τ), _) => HasType e τ ∧ τ ∈ types
  | .error _ => True

@[simp] theorem wellTyped_widen {c d : Cursor} (h : d.rest.length ≤ c.rest.length)
    (o : Outcome d Typed) : WellTyped (o.widen h) ↔ WellTyped o := by
  rcases o with e | ⟨⟨x, τ⟩, ⟨d', hd'⟩⟩ <;> rfl

/-! ## What the scanner reports -/

/-- A passed operand check means the operand has the expected type. -/
theorem require_ok {pos : Nat} {op : BinaryOp} {τ σ : ValueType} {u : Unit}
    (h : require pos op τ σ = .ok u) : τ = σ := by
  unfold require at h
  split at h
  · assumption
  · cases h

/-- A logical level reads only its own operator. -/
theorem eatLogical_op {c : Cursor} {op op' : BinaryOp} {sym kw : String} {d : c.Ahead}
    (h : eatLogical c op sym kw = some (op', d)) : op' = op := by
  unfold eatLogical at h
  split at h
  · cases h
    rfl
  · obtain ⟨_, _, h⟩ := Option.map_eq_some_iff.mp h
    cases h
    rfl

/-- A binary level reads one of the operators it is given. -/
theorem eatBinary_mem {c : Cursor} {ops : List (BinaryOp × String × List String)}
    {op : BinaryOp} {d : c.Ahead} (h : eatBinary c ops = some (op, d)) :
    op ∈ ops.map Prod.fst := by
  induction ops with
  | nil => cases h
  | cons o more ih =>
    obtain ⟨op', sym, longer⟩ := o
    unfold eatBinary at h
    split at h
    · cases h
      simp
    · simp [ih h]

/-- An argument read with one admissible type has that type. -/
theorem hasType_of_wellTypedIn {α : Type} {σ τ : ValueType} {x : Expr} {a : α}
    {o : Except ParseError (Typed × α)} (h : WellTypedIn [σ] o) (ho : o = .ok ((x, τ), a)) :
    HasType x σ := by
  subst ho
  obtain ⟨hx, hτ⟩ := h
  rw [List.mem_singleton] at hτ
  rwa [hτ] at hx

/-- Number literals are numbers. -/
theorem parseNumber_wellTyped (c : Cursor) : WellTyped (parseNumber c) := by
  unfold parseNumber
  dsimp only
  split
  · split
    · split
      · exact .number _
      · trivial
    · trivial
  · trivial

/-- String literals are text. -/
theorem parseString_wellTyped (c : Cursor) : WellTyped (parseString c) := by
  unfold parseString
  dsimp only
  split
  · split
    · split
      · exact .text _
      · trivial
    · trivial
  · trivial

/-- Checking a literal indicator name keeps a text a text. -/
theorem checkIndicatorName_hasType {pos : Nat} {n n' : Expr} (hn : HasType n .text)
    (h : checkIndicatorName pos n = .ok n') : HasType n' .text := by
  unfold checkIndicatorName at h
  split at h
  · split at h
    · cases h
      exact .text _
    · cases h
  · cases h
    exact hn

/-- Checking a literal percentile keeps a percentile type, turning a numeric literal into the
text of its label. -/
theorem checkPercentile_hasType {pos : Nat} {p p' : Expr} {τ : ValueType} (hp : HasType p τ)
    (hτ : τ = .text ∨ τ = .number) (h : checkPercentile pos p = .ok p') :
    ∃ σ, (σ = .text ∨ σ = .number) ∧ HasType p' σ := by
  unfold checkPercentile at h
  dsimp only at h
  split at h
  · -- anything but a literal is kept as it is
    cases h
    exact ⟨τ, hτ, hp⟩
  · -- a literal becomes the text of its label, if that label is kept
    split at h
    · cases h
      exact ⟨.text, .inl rfl, .text _⟩
    · cases h

/-- The family of an operator read at a binary level, when all its operators are of one
family. -/
theorem eatBinary_family {c : Cursor} {ops : List (BinaryOp × String × List String)}
    {op : BinaryOp} {d : c.Ahead} {f : OpFamily} (h : eatBinary c ops = some (op, d))
    (hops : ∀ o ∈ ops, o.1.family = f) : op.family = f := by
  obtain ⟨o, ho, rfl⟩ := List.mem_map.mp (eatBinary_mem h)
  exact hops o ho

/-! ## The induction

`ParsesTypedBelow n` says that every parsing function is well typed at every cursor where its
termination measure is below `n`; an operand loop, from a well-typed left operand. Each step
lemma below proves one function well typed from `ParsesTypedBelow` at its own measure: it
calls other functions only where the measure is smaller. -/

/-- Every parsing function is well typed where its measure is below `n`. -/
structure ParsesTypedBelow (n : Nat) : Prop where
  logicalOr : ∀ depth (c : Cursor), c.rest.length * 32 + 15 < n → WellTyped (parseOr depth c)
  orLoop : ∀ depth (c : Cursor) (left : Typed), c.rest.length * 32 + 14 < n →
    HasType left.1 left.2 → WellTyped (orRest depth c left)
  logicalAnd : ∀ depth (c : Cursor), c.rest.length * 32 + 13 < n → WellTyped (parseAnd depth c)
  andLoop : ∀ depth (c : Cursor) (left : Typed), c.rest.length * 32 + 12 < n →
    HasType left.1 left.2 → WellTyped (andRest depth c left)
  equality : ∀ depth (c : Cursor), c.rest.length * 32 + 11 < n →
    WellTyped (parseEquality depth c)
  equalityLoop : ∀ depth (c : Cursor) (left : Typed), c.rest.length * 32 + 10 < n →
    HasType left.1 left.2 → WellTyped (equalityRest depth c left)
  comparison : ∀ depth (c : Cursor), c.rest.length * 32 + 9 < n →
    WellTyped (parseComparison depth c)
  comparisonLoop : ∀ depth (c : Cursor) (left : Typed), c.rest.length * 32 + 8 < n →
    HasType left.1 left.2 → WellTyped (comparisonRest depth c left)
  additive : ∀ depth (c : Cursor), c.rest.length * 32 + 7 < n →
    WellTyped (parseAdditive depth c)
  additiveLoop : ∀ depth (c : Cursor) (left : Typed), c.rest.length * 32 + 6 < n →
    HasType left.1 left.2 → WellTyped (additiveRest depth c left)
  multiplicative : ∀ depth (c : Cursor), c.rest.length * 32 + 5 < n →
    WellTyped (parseMultiplicative depth c)
  multiplicativeLoop : ∀ depth (c : Cursor) (left : Typed), c.rest.length * 32 + 4 < n →
    HasType left.1 left.2 → WellTyped (multiplicativeRest depth c left)
  unary : ∀ depth (c : Cursor), c.rest.length * 32 + 3 < n → WellTyped (parseUnary depth c)
  unaryOperand : ∀ depth at_ (c : Cursor), c.rest.length * 32 + 2 < n →
    WellTyped (parseUnaryOperand depth at_ c)
  primary : ∀ depth (c : Cursor), c.rest.length * 32 + 1 < n →
    WellTyped (parsePrimary depth c)
  word : ∀ depth (c s : Cursor) (hs : s.rest.length ≤ c.rest.length), c.rest.length * 32 < n →
    WellTyped (parseWord depth c s hs)
  argument : ∀ depth (c : Cursor) (types : List ValueType) (what : String),
    c.rest.length * 32 + 16 < n → WellTypedIn types (parseArgument depth c types what)
  indicatorCall : ∀ depth (c : Cursor), c.rest.length * 32 + 17 < n →
    WellTyped (parseIndicatorCall depth c)
  quantileCall : ∀ depth (c : Cursor), c.rest.length * 32 + 18 < n →
    WellTyped (parseQuantileCall depth c)

/-- A binary level reads an operand and hands it, well typed, to its loop. -/
theorem level_wellTyped {c : Cursor} (operand : Outcome c Typed)
    (loop : (d : Cursor) → Typed → Outcome d Typed) (hop : WellTyped operand)
    (hloop : ∀ (d : Cursor) (left : Typed), d.rest.length ≤ c.rest.length →
      HasType left.1 left.2 → WellTyped (loop d left)) :
    WellTyped (levelStep operand loop) := by
  rcases operand with e | ⟨left, d, hd⟩
  · trivial
  · rw [levelStep_ok, wellTyped_widen]
    exact hloop d left hd hop

/-- An operand loop of a level whose operands all have the type `σ`: after its operator it
reads the right operand from a shorter cursor, checks both operands against `σ`, and goes on
with the joined expression at the type `τ`, which `hjoin` says it has. -/
theorem loop_wellTyped {c : Cursor} {left : Typed}
    (eat : (s : Cursor) → Option (BinaryOp × s.Ahead)) (operand : (s : Cursor) → Outcome s Typed)
    (loop : (d : Cursor) → Typed → Outcome d Typed) (σ τ : ValueType)
    (hl : HasType left.1 left.2)
    (hop : ∀ s : Cursor, s.rest.length < c.rest.length → WellTyped (operand s))
    (hjoin : ∀ (s : Cursor) op d r, eat s = some (op, d) → left.2 = σ → HasType left.1 σ →
      HasType r σ → HasType (.binary op left.1 r) τ)
    (hloop : ∀ (e : Cursor) (l : Typed), e.rest.length < c.rest.length → HasType l.1 l.2 →
      WellTyped (loop e l)) :
    WellTyped (operandStep eat operand loop σ τ c left) := by
  rw [operandStep_eq_match]
  rcases hsk : c.skip with ⟨s, hs⟩
  dsimp only
  rcases heat : eat s with _ | ⟨op, s2, h2⟩
  · exact hl
  · dsimp only
    rcases hpar : operand s2 with err | ⟨⟨r, rt⟩, e, he⟩
    · trivial
    · -- the right operand is read from a shorter cursor
      have hr : HasType r rt := by
        have := hop s2 (by omega)
        rwa [hpar] at this
      dsimp only
      rcases hleft : require s.pos op σ left.2 with err | ⟨⟩
      · trivial
      · rcases hright : require s.pos op σ rt with err | ⟨⟩
        · trivial
        · -- both operands passed the check, so they have the operand type
          have hσl := require_ok hleft
          have hσr := require_ok hright
          rw [wellTyped_widen]
          apply hloop e _ (by omega)
          rw [← hσl] at hl
          rw [← hσr] at hr
          exact hjoin s op _ r heat hσl.symm hl hr

section Steps

variable {depth : Nat}

theorem parseOr_wellTyped {c : Cursor} (ih : ParsesTypedBelow (c.rest.length * 32 + 15)) :
    WellTyped (parseOr depth c) := by
  rw [parseOr_eq_levelStep]
  exact level_wellTyped _ (orRest depth) (ih.logicalAnd depth c (by omega))
    fun d left _ hl => ih.orLoop depth d left (by omega) hl

/-- The `||` loop joins bool operands into a bool. -/
theorem orRest_wellTyped {c : Cursor} (ih : ParsesTypedBelow (c.rest.length * 32 + 14))
    {left : Typed} (hl : HasType left.1 left.2) : WellTyped (orRest depth c left) := by
  rw [orRest_eq_operandStep]
  refine loop_wellTyped (fun s => eatLogical s .or "||" "or") (parseAnd depth) (orRest depth)
    .bool .bool hl (fun s _ => ih.logicalAnd depth s (by omega)) ?_
    (fun e l _ hl => ih.orLoop depth e l (by omega) hl)
  intro s op d r heat _ hl hr
  rw [eatLogical_op heat]
  exact .logical rfl hl hr

theorem parseAnd_wellTyped {c : Cursor} (ih : ParsesTypedBelow (c.rest.length * 32 + 13)) :
    WellTyped (parseAnd depth c) := by
  rw [parseAnd_eq_levelStep]
  exact level_wellTyped _ (andRest depth) (ih.equality depth c (by omega))
    fun d left _ hl => ih.andLoop depth d left (by omega) hl

/-- The `&&` loop joins bool operands into a bool. -/
theorem andRest_wellTyped {c : Cursor} (ih : ParsesTypedBelow (c.rest.length * 32 + 12))
    {left : Typed} (hl : HasType left.1 left.2) : WellTyped (andRest depth c left) := by
  rw [andRest_eq_operandStep]
  refine loop_wellTyped (fun s => eatLogical s .and "&&" "and") (parseEquality depth)
    (andRest depth) .bool .bool hl (fun s _ => ih.equality depth s (by omega)) ?_
    (fun e l _ hl => ih.andLoop depth e l (by omega) hl)
  intro s op d r heat _ hl hr
  rw [eatLogical_op heat]
  exact .logical rfl hl hr

theorem parseEquality_wellTyped {c : Cursor} (ih : ParsesTypedBelow (c.rest.length * 32 + 11)) :
    WellTyped (parseEquality depth c) := by
  rw [parseEquality_eq_levelStep]
  exact level_wellTyped _ (equalityRest depth) (ih.comparison depth c (by omega))
    fun d left _ hl => ih.equalityLoop depth d left (by omega) hl

/-- The `==` and `!=` loop joins two operands of one type, whatever it is, into a bool. Unlike
the other loops it checks no fixed operand type, only that the two types agree. -/
theorem equalityRest_wellTyped {c : Cursor} (ih : ParsesTypedBelow (c.rest.length * 32 + 10))
    {left : Typed} (hl : HasType left.1 left.2) : WellTyped (equalityRest depth c left) := by
  rw [equalityRest]
  split
  rename_i s hs _
  split
  · exact hl
  · rename_i op s2 h2 heat
    split
    · trivial
    · rename_i r rt e he hpar
      have hr := ih.comparison depth s2 (by omega)
      rw [hpar] at hr
      split
      · rename_i hsame
        rw [wellTyped_widen]
        have hop : op.family = .equality := eatBinary_family heat (by decide)
        rw [← hsame] at hr
        exact ih.equalityLoop depth e _ (by omega) (.equality hop hl hr)
      · trivial

theorem parseComparison_wellTyped {c : Cursor}
    (ih : ParsesTypedBelow (c.rest.length * 32 + 9)) : WellTyped (parseComparison depth c) := by
  rw [parseComparison_eq_levelStep]
  exact level_wellTyped _ (comparisonRest depth) (ih.additive depth c (by omega))
    fun d left _ hl => ih.comparisonLoop depth d left (by omega) hl

/-- The comparison loop joins numbers into a bool. -/
theorem comparisonRest_wellTyped {c : Cursor} (ih : ParsesTypedBelow (c.rest.length * 32 + 8))
    {left : Typed} (hl : HasType left.1 left.2) : WellTyped (comparisonRest depth c left) := by
  rw [comparisonRest_eq_operandStep]
  refine loop_wellTyped
    (fun s => eatBinary s [(.le, "<=", []), (.ge, ">=", []), (.lt, "<", []), (.gt, ">", [])])
    (parseAdditive depth) (comparisonRest depth) .number .bool hl
    (fun s _ => ih.additive depth s (by omega)) ?_
    (fun e l _ hl => ih.comparisonLoop depth e l (by omega) hl)
  intro s op d r heat _ hl hr
  exact .comparison (eatBinary_family heat (by decide)) hl hr

theorem parseAdditive_wellTyped {c : Cursor} (ih : ParsesTypedBelow (c.rest.length * 32 + 7)) :
    WellTyped (parseAdditive depth c) := by
  rw [parseAdditive_eq_levelStep]
  exact level_wellTyped _ (additiveRest depth) (ih.multiplicative depth c (by omega))
    fun d left _ hl => ih.additiveLoop depth d left (by omega) hl

/-- The `+` and `-` loop joins numbers into a number; it goes on with the left operand's type,
which the check made a number. -/
theorem additiveRest_wellTyped {c : Cursor} (ih : ParsesTypedBelow (c.rest.length * 32 + 6))
    {left : Typed} (hl : HasType left.1 left.2) : WellTyped (additiveRest depth c left) := by
  rw [additiveRest_eq_operandStep]
  refine loop_wellTyped (fun s => eatBinary s [(.add, "+", []), (.sub, "-", [])])
    (parseMultiplicative depth) (additiveRest depth) .number left.2 hl
    (fun s _ => ih.multiplicative depth s (by omega)) ?_
    (fun e l _ hl => ih.additiveLoop depth e l (by omega) hl)
  intro s op d r heat hσ hl hr
  rw [hσ]
  exact .arithmetic (eatBinary_family heat (by decide)) hl hr

theorem parseMultiplicative_wellTyped {c : Cursor}
    (ih : ParsesTypedBelow (c.rest.length * 32 + 5)) :
    WellTyped (parseMultiplicative depth c) := by
  rw [parseMultiplicative_eq_levelStep]
  exact level_wellTyped _ (multiplicativeRest depth) (ih.unary depth c (by omega))
    fun d left _ hl => ih.multiplicativeLoop depth d left (by omega) hl

/-- The `*` and `/` loop joins numbers into a number, as the additive loop does. -/
theorem multiplicativeRest_wellTyped {c : Cursor}
    (ih : ParsesTypedBelow (c.rest.length * 32 + 4)) {left : Typed} (hl : HasType left.1 left.2) :
    WellTyped (multiplicativeRest depth c left) := by
  rw [multiplicativeRest_eq_operandStep]
  refine loop_wellTyped (fun s => eatBinary s [(.mul, "*", []), (.div, "/", [])])
    (parseUnary depth) (multiplicativeRest depth) .number left.2 hl
    (fun s _ => ih.unary depth s (by omega)) ?_
    (fun e l _ hl => ih.multiplicativeLoop depth e l (by omega) hl)
  intro s op d r heat hσ hl hr
  rw [hσ]
  exact .arithmetic (eatBinary_family heat (by decide)) hl hr

/-- The unary level only counts and passes on what its operand reads. -/
theorem parseUnary_wellTyped {c : Cursor} (ih : ParsesTypedBelow (c.rest.length * 32 + 3)) :
    WellTyped (parseUnary depth c) := by
  rw [parseUnary]
  split
  rename_i s hs _
  split
  · trivial
  · split
    · trivial
    · rw [wellTyped_widen]
      -- the operand is read at the same text, one operand further
      exact ih.unaryOperand (depth + 1) s.pos ⟨s.rest, s.pos, s.operands + 1⟩
        (show s.rest.length * 32 + 2 < _ by omega)

/-- `!` takes and gives a bool, unary `-` a number. -/
theorem parseUnaryOperand_wellTyped {at_ : Nat} {c : Cursor}
    (ih : ParsesTypedBelow (c.rest.length * 32 + 2)) :
    WellTyped (parseUnaryOperand depth at_ c) := by
  rw [parseUnaryOperand]
  split
  rename_i s hs _
  split
  · rw [wellTyped_widen]
    exact ih.primary depth s (by omega)
  · rename_i op s2 h2 _
    split
    · trivial
    · rename_i x ty d hd hpar
      have hx := ih.unary depth s2 (by omega)
      rw [hpar] at hx
      dsimp only
      -- the operand must have the type its operator expects
      split
      · rename_i hnot
        subst hnot
        split
        · rename_i hty
          subst hty
          exact .not hx
        · trivial
      · rename_i hnot
        obtain rfl : op = .negate := by cases op <;> simp_all
        split
        · rename_i hty
          subst hty
          exact .negate hx
        · trivial

/-- A parenthesised expression has the type of what it holds; literals and words have
theirs. -/
theorem parsePrimary_wellTyped {c : Cursor} (ih : ParsesTypedBelow (c.rest.length * 32 + 1)) :
    WellTyped (parsePrimary depth c) := by
  rw [parsePrimary]
  split
  rename_i s hs _
  split
  · rename_i s2 h2 _
    split
    · trivial
    · rename_i inner d hd hpar
      have hin := ih.logicalOr depth s2 (by omega)
      rw [hpar] at hin
      split
      · trivial
      · exact hin
  · split
    · rw [wellTyped_widen]
      exact parseString_wellTyped s
    · split
      · rw [wellTyped_widen]
        exact parseNumber_wellTyped s
      · exact ih.word depth c s hs (by omega)
    · exact ih.word depth c s hs (by omega)

/-- Keywords and variables have their fixed types; accessor calls are numbers. -/
theorem parseWord_wellTyped {c s : Cursor} {hs : s.rest.length ≤ c.rest.length}
    (ih : ParsesTypedBelow (c.rest.length * 32)) : WellTyped (parseWord depth c s hs) := by
  rw [parseWord]
  dsimp only
  split
  · trivial
  · rename_i s2 h2 _
    split
    · exact .bool true
    · exact .bool false
    · exact .instrument
    · exact .instrument
    · exact .time
    · rw [wellTyped_widen]
      exact ih.indicatorCall depth s2 (by omega)
    · rw [wellTyped_widen]
      exact ih.quantileCall depth s2 (by omega)
    · trivial

/-- An accessor argument is well typed and of one of the admitted types. -/
theorem parseArgument_wellTypedIn {c : Cursor} {types : List ValueType} {what : String}
    (ih : ParsesTypedBelow (c.rest.length * 32 + 16)) :
    WellTypedIn types (parseArgument depth c types what) := by
  rw [parseArgument]
  split
  rename_i s hs _
  split
  · trivial
  · rename_i x ty d hd hpar
    have hx := ih.logicalOr depth s (by omega)
    rw [hpar] at hx
    split
    · rename_i hmem
      exact ⟨hx, by simpa using hmem⟩
    · trivial

/-- `Indicator(name, instrument, time)` is a number read from text, text and a number. -/
theorem parseIndicatorCall_wellTyped {c : Cursor}
    (ih : ParsesTypedBelow (c.rest.length * 32 + 17)) :
    WellTyped (parseIndicatorCall depth c) := by
  rw [parseIndicatorCall]
  split
  · trivial
  · rename_i c1 h1 _
    dsimp only
    split
    · trivial
    · rename_i name _ c2 h2 hname
      have hn := hasType_of_wellTypedIn (ih.argument depth c1 [.text] _ (by omega)) hname
      split
      · trivial
      · trivial
      · rename_i name' c3 h3 hcheck _
        -- a literal name is replaced by its canonical text
        have hn' := checkIndicatorName_hasType hn hcheck
        split
        · trivial
        · rename_i inst _ c4 h4 hinst
          have hi := hasType_of_wellTypedIn (ih.argument depth c3 [.text] _ (by omega)) hinst
          split
          · trivial
          · rename_i c5 h5 _
            split
            · trivial
            · rename_i t _ c6 h6 htime
              have ht := hasType_of_wellTypedIn
                (ih.argument depth c5 [.number] _ (by omega)) htime
              split
              · trivial
              · exact .indicator hn' hi ht

/-- `IndQuantile(name, percentile, instrument, time)` is a number read from text, a text or
numeric percentile, text and a number. -/
theorem parseQuantileCall_wellTyped {c : Cursor}
    (ih : ParsesTypedBelow (c.rest.length * 32 + 18)) :
    WellTyped (parseQuantileCall depth c) := by
  rw [parseQuantileCall]
  split
  · trivial
  · rename_i c1 h1 _
    dsimp only
    split
    · trivial
    · rename_i name _ c2 h2 hname
      have hn := hasType_of_wellTypedIn (ih.argument depth c1 [.text] _ (by omega)) hname
      split
      · trivial
      · trivial
      · rename_i name' c3 h3 hcheck _
        have hn' := checkIndicatorName_hasType hn hcheck
        split
        · trivial
        · rename_i pct pty c4 h4 hpct
          have hp := ih.argument depth c3 [.text, .number] "percentile" (by omega)
          rw [hpct] at hp
          obtain ⟨hp, hpty⟩ := hp
          split
          · trivial
          · trivial
          · rename_i pct' c5 h5 hcheckp _
            -- a literal percentile becomes the text of its label
            obtain ⟨σ, hσ, hp'⟩ := checkPercentile_hasType hp (by simpa using hpty) hcheckp
            split
            · trivial
            · rename_i inst _ c6 h6 hinst
              have hi := hasType_of_wellTypedIn (ih.argument depth c5 [.text] _ (by omega)) hinst
              split
              · trivial
              · rename_i c7 h7 _
                split
                · trivial
                · rename_i t _ c8 h8 htime
                  have ht := hasType_of_wellTypedIn
                    (ih.argument depth c7 [.number] _ (by omega)) htime
                  split
                  · trivial
                  · exact .quantile hn' hσ hp' hi ht

end Steps

/-- Every parsing function is well typed, from every cursor: a strong induction on the
termination measure, each function's step lemma using the functions below it. -/
theorem parsesTypedBelow (n : Nat) : ParsesTypedBelow n := by
  induction n using Nat.strongRecOn with
  | ind n ih =>
    exact ⟨fun _ _ h => parseOr_wellTyped (ih _ h),
      fun _ _ _ h hl => orRest_wellTyped (ih _ h) hl,
      fun _ _ h => parseAnd_wellTyped (ih _ h),
      fun _ _ _ h hl => andRest_wellTyped (ih _ h) hl,
      fun _ _ h => parseEquality_wellTyped (ih _ h),
      fun _ _ _ h hl => equalityRest_wellTyped (ih _ h) hl,
      fun _ _ h => parseComparison_wellTyped (ih _ h),
      fun _ _ _ h hl => comparisonRest_wellTyped (ih _ h) hl,
      fun _ _ h => parseAdditive_wellTyped (ih _ h),
      fun _ _ _ h hl => additiveRest_wellTyped (ih _ h) hl,
      fun _ _ h => parseMultiplicative_wellTyped (ih _ h),
      fun _ _ _ h hl => multiplicativeRest_wellTyped (ih _ h) hl,
      fun _ _ h => parseUnary_wellTyped (ih _ h),
      fun _ _ _ h => parseUnaryOperand_wellTyped (ih _ h),
      fun _ _ h => parsePrimary_wellTyped (ih _ h),
      fun _ _ _ _ h => parseWord_wellTyped (ih _ h),
      fun _ _ _ _ h => parseArgument_wellTypedIn (ih _ h),
      fun _ _ h => parseIndicatorCall_wellTyped (ih _ h),
      fun _ _ h => parseQuantileCall_wellTyped (ih _ h)⟩

/-- A whole expression read at any cursor is well typed. -/
theorem parseOr_wellTyped_all (depth : Nat) (c : Cursor) : WellTyped (parseOr depth c) :=
  (parsesTypedBelow (c.rest.length * 32 + 16)).logicalOr depth c (by omega)

/-! ## Compiled programs -/

/-- A compiled program is a bool-typed tree. -/
theorem parse_hasType {p : String} {e : Expr} (h : parse p = .ok e) : HasType e .bool := by
  -- clamping an error position leaves a success alone
  have hraw : parseRaw p = .ok e := by
    unfold parse at h
    split at h
    · rename_i e' hraw
      cases h
      exact hraw
    · cases h
  unfold parseRaw at hraw
  dsimp only at hraw
  split at hraw
  · cases hraw
  · rename_i x ty d hd hpar
    have hx := parseOr_wellTyped_all 0 (⟨p.toList ++ templateClose, 0, 0⟩ : Cursor).skip.1
    rw [hpar] at hx
    split at hraw
    · cases hraw
    · rename_i hbool
      -- the template closes around the expression only when it is a bool
      have hty : ty = .bool := by simpa using hbool
      subst hty
      split at hraw
      · cases hraw
      · split at hraw
        · cases hraw
        · split at hraw
          · cases hraw
            exact hx
          · cases hraw

/-- Programs compile into trees that are well typed at bool, and whose evaluation, for every
dataset, instrument and time index, gives a truth value or fails on a lookup, an invalid time
or a division by zero: never on a type mismatch. -/
theorem parse_hasType_evaluate {p : String} {e : Expr} (h : parse p = .ok e) :
    HasType e .bool ∧ ∀ (ds : Dataset) (inst : String) (t : Nat),
      (∃ b, evaluate ds inst t e = .ok b) ∨ (∃ l, evaluate ds inst t e = .error (.lookup l)) ∨
        (∃ x, evaluate ds inst t e = .error (.invalidTime x)) ∨
        evaluate ds inst t e = .error .divisionByZero := by
  have htyped := parse_hasType h
  refine ⟨htyped, fun ds inst t => ?_⟩
  exact (typeSafe_true_iff _).mp (evaluate_typeSafe htyped)

/-- A program that compares the instrument with a text and an indicator with the time compiles
into the tree it reads as, which is well typed and evaluates without a type mismatch. -/
theorem parse_hasType_evaluate_sample :
    parse "!(stock == \"X\") || Indicator(\"SMA\", instrument, time) >= time" =
        .ok (.binary .or (.unary .not (.binary .eq .instrument (.text "X")))
          (.binary .ge (.indicator (.text "SMA") .instrument .time) .time)) ∧
      HasType (.binary .or (.unary .not (.binary .eq .instrument (.text "X")))
          (.binary .ge (.indicator (.text "SMA") .instrument .time) .time)) .bool ∧
      ∀ (ds : Dataset) (inst : String) (t : Nat),
        let e : Expr := .binary .or (.unary .not (.binary .eq .instrument (.text "X")))
          (.binary .ge (.indicator (.text "SMA") .instrument .time) .time)
        (∃ b, evaluate ds inst t e = .ok b) ∨ (∃ l, evaluate ds inst t e = .error (.lookup l)) ∨
          (∃ x, evaluate ds inst t e = .error (.invalidTime x)) ∨
          evaluate ds inst t e = .error .divisionByZero := by
  have hparse : parse "!(stock == \"X\") || Indicator(\"SMA\", instrument, time) >= time" =
      .ok (.binary .or (.unary .not (.binary .eq .instrument (.text "X")))
        (.binary .ge (.indicator (.text "SMA") .instrument .time) .time)) := by
    cbv
  exact ⟨hparse, parse_hasType_evaluate hparse⟩

end Strategy
end Backtest
