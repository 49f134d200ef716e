import Mathlib
import Backtest.Proofs.Strategy.ReadLevels
import Backtest.Proofs.Strategy.ParseLiterals
import Backtest.Proofs.Strategy.ParseShape
import Backtest.Proofs.Strategy.ParseTyping
import Backtest.Proofs.Market.Alignment
import Backtest.Proofs.Config.Reading
/-!
# Proofs.Strategy.ReadBack — printing a compiled predicate and reading it again

The printed form of a tree (`Expr.render`) puts every binary node in parentheses, prints a
unary node as its operator before a parenthesised operand, a number with the fewest digits and
no exponent, a text between quotes and an accessor as a call. Reading it back gives the same
tree, bit for bit in its numbers, as long as the printed form stays within the parser's two
budgets and every number literal is finite: an infinite literal prints as `inf`, which is no
literal of the language.

The printed form costs more than the source did: each binary node's parentheses take one
nesting level, and a unary node's operand takes a level of its own for its parentheses.
`Expr.printNesting` and `Expr.printOperands` count what the parser spends on it.

* `ReadsBackAt` — the printed form of a tree is read back by the unary level as that tree,
  from any cursor and before any delimiter, within the budgets it needs;
* `readsBackAt_of_hasType` — every well-typed tree whose literals source text can spell, whose
  accessor names are known and whose numbers are finite reads back, by induction on the typing
  derivation;
* `parse_render` — a compiled program with finite numbers, printed and compiled again, gives
  the same tree exactly when the printed form fits the budgets, and otherwise fails only on a
  budget;
* `parse_one_zeros_gt_time` — a one followed by at least 310 zeros is a literal too large for a
  double: it compiles, as infinity;
* `parse_render_overflow` — so it prints as `inf`, and the printed program does not compile
  again.
-/

namespace Backtest
namespace Strategy

open Text

/-! ## What the printed form costs -/

namespace Expr

/-- The number literals of a tree, in reading order. -/
def numbers : Expr → List Float
  | number x => [x]
  | unary _ e => e.numbers
  | binary _ l r => l.numbers ++ r.numbers
  | indicator n i t => n.numbers ++ i.numbers ++ t.numbers
  | quantile n p i t => n.numbers ++ p.numbers ++ i.numbers ++ t.numbers
  | _ => []

/-- The nesting levels the parser goes down reading the printed form from a unary level: one
for the operand itself, one more for the parentheses of a unary node's operand, and one for
the parentheses of a binary node or the arguments of a call. -/
def printNesting : Expr → Nat
  | unary _ e => e.printNesting + 2
  | binary _ l r => max l.printNesting r.printNesting + 1
  | indicator n i t => max n.printNesting (max i.printNesting t.printNesting) + 1
  | quantile n p i t =>
    max (max n.printNesting p.printNesting) (max i.printNesting t.printNesting) + 1
  | _ => 1

/-- The operands the parser counts reading the printed form: one per unary level it enters. -/
def printOperands : Expr → Nat
  | unary _ e => e.printOperands + 2
  | binary _ l r => l.printOperands + r.printOperands + 1
  | indicator n i t => n.printOperands + i.printOperands + t.printOperands + 1
  | quantile n p i t => n.printOperands + p.printOperands + i.printOperands + t.printOperands + 1
  | _ => 1

end Expr

/-! ## The printed form, character by character -/

namespace Expr

/-! Lean cannot build the equation lemmas of `render` within its limits (proving them evaluates
string literals), so `rw [render]` fails; each case is stated here by `rfl` instead. -/

theorem render_number (x : Float) : (number x).render = Decimal.plain.render x := rfl

theorem render_text (s : String) : (text s).render = "\"" ++ s ++ "\"" := rfl

theorem render_unary (op : UnaryOp) (e : Expr) :
    (unary op e).render = op.symbol ++ "(" ++ e.render ++ ")" := rfl

theorem render_binary (op : BinaryOp) (l r : Expr) :
    (binary op l r).render = "(" ++ l.render ++ " " ++ op.symbol ++ " " ++ r.render ++ ")" := rfl

theorem render_indicator (n i t : Expr) :
    (indicator n i t).render =
      "Indicator(" ++ n.render ++ ", " ++ i.render ++ ", " ++ t.render ++ ")" := rfl

theorem render_quantile (n p i t : Expr) :
    (quantile n p i t).render =
      "IndQuantile(" ++ n.render ++ ", " ++ p.render ++ ", " ++ i.render ++ ", " ++ t.render ++
        ")" := rfl

theorem toList_open : ("(" : String).toList = ['('] := rfl

theorem toList_close : (")" : String).toList = [')'] := rfl

theorem toList_space : (" " : String).toList = [' '] := rfl

theorem toList_comma : (", " : String).toList = [',', ' '] := rfl

theorem render_binary_toList (op : BinaryOp) (l r : Expr) :
    (binary op l r).render.toList =
      '(' :: (l.render.toList ++ ' ' :: (op.symbol.toList ++ ' ' :: (r.render.toList ++ [')']))) := by
  simp only [render_binary, String.toList_append, List.append_assoc, toList_open,
    toList_close, toList_space, List.cons_append, List.nil_append]

theorem render_unary_toList (op : UnaryOp) (e : Expr) :
    (unary op e).render.toList = op.symbol.toList ++ '(' :: (e.render.toList ++ [')']) := by
  simp only [render_unary, String.toList_append, List.append_assoc, toList_open,
    toList_close, List.cons_append, List.nil_append]

theorem render_indicator_toList (n i t : Expr) :
    (indicator n i t).render.toList = "Indicator".toList ++ '(' :: (n.render.toList ++
      ',' :: ' ' :: (i.render.toList ++ ',' :: ' ' :: (t.render.toList ++ [')']))) := by
  simp only [render_indicator, String.toList_append, List.append_assoc, toList_close, toList_comma,
    List.cons_append, List.nil_append]
  rw [show ("Indicator(" : String).toList = "Indicator".toList ++ ['('] from rfl,
    List.append_assoc, List.singleton_append]

theorem render_quantile_toList (n p i t : Expr) :
    (quantile n p i t).render.toList = "IndQuantile".toList ++ '(' :: (n.render.toList ++
      ',' :: ' ' :: (p.render.toList ++ ',' :: ' ' :: (i.render.toList ++
        ',' :: ' ' :: (t.render.toList ++ [')'])))) := by
  simp only [render_quantile, String.toList_append, List.append_assoc, toList_close, toList_comma,
    List.cons_append, List.nil_append]
  rw [show ("IndQuantile(" : String).toList = "IndQuantile".toList ++ ['('] from rfl,
    List.append_assoc, List.singleton_append]

theorem render_text_toList (s : String) :
    (text s).render.toList = '"' :: (s.toList ++ ['"']) := by
  simp only [render_text, String.toList_append]
  rfl

/-- Every printed form starts with a character that is not a blank. -/
theorem render_head (e : Expr) : ∃ ch tl, e.render.toList = ch :: tl ∧ isBlank ch = false := by
  cases e with
  | number x =>
    rw [render_number]
    obtain ⟨ch, tl, h⟩ := List.exists_cons_of_ne_nil
      (mt String.toList_eq_nil_iff.mp (Config.render_plain_ne_empty x))
    exact ⟨ch, tl, h, Config.isBlank_of_mem_render_plain x ch (by rw [h]; simp)⟩
  | bool b => cases b <;> exact ⟨_, _, rfl, by decide⟩
  | text s => exact ⟨_, _, render_text_toList s, by decide⟩
  | instrument | time => exact ⟨_, _, rfl, by decide⟩
  | unary op e =>
    rw [render_unary_toList]
    cases op <;> exact ⟨_, _, rfl, by decide⟩
  | binary op l r => exact ⟨_, _, render_binary_toList op l r, by decide⟩
  | indicator n i t => exact ⟨_, _, render_indicator_toList n i t, by decide⟩
  | quantile n p i t => exact ⟨_, _, render_quantile_toList n p i t, by decide⟩

theorem dropWhile_isBlank_render (e : Expr) (rest : List Char) :
    (e.render.toList ++ rest).dropWhile isBlank = e.render.toList ++ rest := by
  obtain ⟨ch, tl, h, hch⟩ := render_head e
  rw [h, List.cons_append, dropWhile_isBlank_cons hch]

end Expr

/-! ## Reading back a tree -/

/-- The printed form of `e`, wherever it stands after blanks and whatever delimiter follows it,
is read back by the unary level as `e` of type `τ`, as long as its nesting and operands fit the
budgets left; otherwise the read fails on a budget. -/
def ReadsBackAt (e : Expr) (τ : ValueType) : Prop :=
  ∀ (depth : Nat) (c : Cursor) (rest : List Char),
    c.rest.dropWhile isBlank = e.render.toList ++ rest → Delimited rest →
    ReadsBack (e, τ) rest (c.operands + e.printOperands)
      (depth + e.printNesting ≤ maxNesting ∧ c.operands + e.printOperands ≤ maxOperands)
      (parseUnary depth c)

theorem BinaryOp.level_le (op : BinaryOp) : op.level ≤ 5 := by
  cases op <;> decide

theorem BinaryOp.exists_symbol_head (op : BinaryOp) :
    ∃ a p, op.symbol.toList = a :: p ∧ isBlank a = false := by
  cases op <;> exact ⟨_, _, rfl, by decide⟩

/-- The inside of a printed binary node, read from the loosest level: the left operand comes
down to the operator's level past the tighter loops, the operator's loop reads the right
operand, and the looser loops stop at the closing parenthesis. -/
theorem parseOr_binary {depth : Nat} {op : BinaryOp} {l r : Expr} {τl τr τ : ValueType}
    {rest : List Char} (hjoin : Joins op τl τr τ) (hl : ReadsBackAt l τl)
    (hr : ReadsBackAt r τr) (s : Cursor)
    (hs : s.rest = l.render.toList ++ ' ' :: (op.symbol.toList ++ ' ' ::
      (r.render.toList ++ ')' :: rest))) :
    ReadsBack (.binary op l r, τ) (')' :: rest) (s.operands + l.printOperands + r.printOperands)
      ((depth + l.printNesting ≤ maxNesting ∧ s.operands + l.printOperands ≤ maxOperands) ∧
        (depth + r.printNesting ≤ maxNesting ∧
          s.operands + l.printOperands + r.printOperands ≤ maxOperands))
      (parseOr depth s) := by
  obtain ⟨a, p, hsym, ha⟩ := op.exists_symbol_head
  have hlev := op.level_le
  have hspace : isBlank ' ' = true := by decide
  -- the blank before the operator is skipped; the operator starts no tighter level's operator
  have hρ : (' ' :: (op.symbol.toList ++ ' ' :: (r.render.toList ++ ')' :: rest))).dropWhile
      isBlank = a :: (p ++ ' ' :: (r.render.toList ++ ')' :: rest)) := by
    rw [List.dropWhile_cons_of_pos hspace, hsym, List.cons_append, dropWhile_isBlank_cons ha]
  have hleft := hl depth s _ (by rw [hs, Expr.dropWhile_isBlank_render]) ⟨' ', _, rfl, Or.inl rfl⟩
  rw [← parseLevel_six, show 6 = op.level + 1 + (5 - op.level) by omega] at hleft
  have hdown := readsBack_down hρ (5 - op.level) (op.level + 1) (by omega)
    (fun j hj hj6 hmem => by
      have := (head_symbol_mem_levelHeads op (by omega : j < 6)).mp (by
        rw [hsym]
        simpa using hmem)
      omega) hleft
  have hmid : ReadsBack (.binary op l r, τ) (')' :: rest)
      (s.operands + l.printOperands + r.printOperands)
      ((depth + l.printNesting ≤ maxNesting ∧ s.operands + l.printOperands ≤ maxOperands) ∧
        (depth + r.printNesting ≤ maxNesting ∧
          s.operands + l.printOperands + r.printOperands ≤ maxOperands))
      (parseLevel depth op.level s) := by
    refine readsBack_level (by omega : op.level < 6) hdown (fun d hd hk hfl => ?_) And.left
    -- the loop of the operator's level stands at the operator
    have hc : d.rest.dropWhile isBlank =
        op.symbol.toList ++ ' ' :: (r.render.toList ++ ')' :: rest) := by
      rw [hd]
      split
      · rw [hρ, hsym, List.cons_append]
      · rw [dropWhile_isBlank_cons ha, hsym, List.cons_append]
    refine restLevel_consume hc hjoin rfl (Or.inl rfl) fun s2 hs2 hk2 => ?_
    have hright := hr depth s2 (')' :: rest)
      (by rw [hs2, List.dropWhile_cons_of_pos hspace, Expr.dropWhile_isBlank_render])
      ⟨')', rest, rfl, Or.inr (Or.inl rfl)⟩
    rw [← parseLevel_six] at hright
    refine (readsBack_parseLevel rfl (Or.inl rfl) le_rfl (by omega) hright).congr
      (by rw [hk2, hk]) ?_
    rw [hk2, hk]
    exact ⟨fun h => ⟨hfl, h⟩, fun h => h.2⟩
  exact readsBack_parseLevel rfl (Or.inl rfl) (by omega) (Nat.zero_le _) hmid

/-! ## The unary level and the primaries -/

/-- The unary level spends one nesting level and one operand, then reads what stands after the
blanks one level deeper. -/
theorem readsBack_parseUnary {depth : Nat} {c : Cursor} {t : Typed} {ρ : List Char} {k : Nat}
    {fits : Prop}
    (h : ∀ s : Cursor, s.rest = c.rest.dropWhile isBlank → s.operands = c.operands + 1 →
      ReadsBack t ρ k fits (parseUnaryOperand (depth + 1) s.pos s)) :
    ReadsBack t ρ k (depth < maxNesting ∧ c.operands + 1 ≤ maxOperands ∧ fits)
      (parseUnary depth c) := by
  rw [parseUnary]
  rcases hsk : c.skip with ⟨s, hs⟩
  obtain ⟨hsr, hso⟩ := Cursor.skip_facts hsk
  dsimp only
  by_cases hd : depth ≥ maxNesting
  · rw [if_pos hd]
    exact ⟨fun h => by omega, Or.inl rfl⟩
  · rw [if_neg hd]
    by_cases ho : s.operands + 1 > maxOperands
    · rw [if_pos ho]
      exact ⟨fun h => by omega, Or.inr rfl⟩
    · rw [if_neg ho, readsBack_widen]
      exact (h ⟨s.rest, s.pos, s.operands + 1⟩ hsr (by rw [hso])).congr rfl
        ⟨fun hf => ⟨by omega, by omega, hf⟩, fun hf => hf.2.2⟩

/-- No unary operator stands before a character other than `!`, `n` and `-`. -/
theorem eatUnary_eq_none {c : Cursor} {ch : Char} {tl : List Char} (hc : c.rest = ch :: tl)
    (h1 : '!' ≠ ch) (h2 : 'n' ≠ ch) (h3 : '-' ≠ ch) : eatUnary c = none := by
  have e1 : c.eatOperator "!" ["!="] = none := Cursor.eatOperator_cons_ne rfl hc h1
  have e2 : c.eatKeyword "not" = none := Cursor.eatKeyword_cons_ne rfl hc h2
  have e3 : c.eatOperator "-" [] = none := Cursor.eatOperator_cons_ne rfl hc h3
  simp only [eatUnary, e1, e2, e3, Option.map_none]

/-- A printed unary operator, followed by its parenthesis, is read as that operator: `!(` is not
the start of `!=`. -/
theorem eatUnary_symbol (op : UnaryOp) {s : Cursor} {tail : List Char}
    (hs : s.rest = op.symbol.toList ++ '(' :: tail) :
    ∃ s2 h2, eatUnary s = some (op, ⟨s2, h2⟩) ∧ s2.rest = '(' :: tail ∧
      s2.operands = s.operands := by
  cases op <;>
    simp [eatUnary, UnaryOp.symbol, Cursor.eatOperator, Cursor.eatKeyword, Cursor.atKeyword,
      Cursor.eat, Cursor.past, hs, List.isPrefixOf]

theorem UnaryOp.exists_symbol (op : UnaryOp) :
    ∃ a, op.symbol.toList = [a] ∧ isBlank a = false := by
  cases op <;> exact ⟨_, rfl, by decide⟩

/-- Where no unary operator stands, the operand is a primary. -/
theorem readsBack_parseUnaryOperand_primary {depth at_ : Nat} {c : Cursor} {t : Typed}
    {ρ : List Char} {k : Nat} {fits : Prop} {ch : Char} {tl : List Char} (hc : c.rest = ch :: tl)
    (hblank : isBlank ch = false) (h1 : '!' ≠ ch) (h2 : 'n' ≠ ch) (h3 : '-' ≠ ch)
    (h : ∀ s : Cursor, s.rest = c.rest → s.operands = c.operands →
      ReadsBack t ρ k fits (parsePrimary depth s)) :
    ReadsBack t ρ k fits (parseUnaryOperand depth at_ c) := by
  rw [parseUnaryOperand]
  rcases hsk : c.skip with ⟨s, hs⟩
  obtain ⟨hsr, hso⟩ := Cursor.skip_facts hsk
  rw [hc, dropWhile_isBlank_cons hblank, ← hc] at hsr
  dsimp only
  rw [eatUnary_eq_none (hsr.trans hc) h1 h2 h3]
  dsimp only
  rw [readsBack_widen]
  exact h s hsr hso

/-- A unary operator: its operand, printed in parentheses, is read at the unary level and must
have the operator's operand type. -/
theorem readsBack_parseUnaryOperand_unary {depth at_ : Nat} {c : Cursor} {op : UnaryOp}
    {x : Expr} {τ : ValueType} {ρ : List Char} {k : Nat} {fits : Prop} {tail : List Char}
    (hc : c.rest = op.symbol.toList ++ '(' :: tail)
    (hτ : τ = if op = .not then .bool else .number)
    (h : ∀ s : Cursor, s.rest = '(' :: tail → s.operands = c.operands →
      ReadsBack (x, τ) ρ k fits (parseUnary depth s)) :
    ReadsBack (.unary op x, τ) ρ k fits (parseUnaryOperand depth at_ c) := by
  obtain ⟨a, hsym, ha⟩ := op.exists_symbol
  rw [parseUnaryOperand]
  rcases hsk : c.skip with ⟨s, hs⟩
  obtain ⟨hsr, hso⟩ := Cursor.skip_facts hsk
  rw [hc, hsym, List.singleton_append, dropWhile_isBlank_cons ha, ← List.singleton_append,
    ← hsym] at hsr
  obtain ⟨s2, h2, heat, hs2r, hs2o⟩ := eatUnary_symbol op hsr
  dsimp only
  rw [heat]
  dsimp only
  have hx := h s2 hs2r (hs2o.trans hso)
  rcases hp : parseUnary depth s2 with err | ⟨⟨e, ty⟩, d, hd⟩
  · rw [hp] at hx
    exact hx
  · rw [hp] at hx
    obtain ⟨hf, hxt, hdr, hdo⟩ := hx
    obtain ⟨rfl, rfl⟩ := Prod.mk.inj hxt
    dsimp only
    rw [if_pos hτ]
    exact ⟨hf, rfl, hdr, hdo⟩

/-- A parenthesised expression: the loosest level reads the inside, which must stop at the
closing parenthesis. -/
theorem readsBack_parsePrimary_paren {depth : Nat} {s : Cursor} {body rest : List Char}
    {t : Typed} {k : Nat} {fits : Prop} (hs : s.rest = '(' :: body)
    (hin : ∀ s2 : Cursor, s2.rest = body → s2.operands = s.operands →
      ReadsBack t (')' :: rest) k fits (parseOr depth s2)) :
    ReadsBack t rest k fits (parsePrimary depth s) := by
  rw [parsePrimary]
  rcases hsk : s.skip with ⟨s', hs'⟩
  obtain ⟨hsr, hso⟩ := Cursor.skip_facts hsk
  rw [hs, dropWhile_isBlank_cons (by decide)] at hsr
  obtain ⟨⟨s2, h2⟩, heat, hs2r, hs2o⟩ :=
    Cursor.eat_append (show s'.rest = ['('] ++ body from hsr) (List.cons_ne_nil _ _)
  dsimp only
  rw [heat]
  dsimp only
  have hinner := hin s2 hs2r (hs2o.trans hso)
  rcases hp : parseOr depth s2 with err | ⟨inner, d, hd⟩
  · rw [hp] at hinner
    exact hinner
  · rw [hp] at hinner
    obtain ⟨hf, rfl, hdr, hdo⟩ := hinner
    have hclose : d.rest.dropWhile isBlank = ')' :: rest := by
      rw [hdr, dropWhile_isBlank_cons (by decide)]
    obtain ⟨⟨e, he⟩, hexp, her, heo⟩ := Cursor.expect_of_dropWhile hclose
    dsimp only
    rw [hexp]
    exact ⟨hf, rfl, her, heo.trans hdo⟩

/-- The unary level over a primary: one nesting level and one operand, then the primary. -/
theorem readsBack_primary {depth : Nat} {c : Cursor} {ch : Char} {tl rest : List Char}
    {t : Typed} {k : Nat} {fits : Prop} (hc : c.rest.dropWhile isBlank = ch :: tl)
    (hblank : isBlank ch = false) (h1 : '!' ≠ ch) (h2 : 'n' ≠ ch) (h3 : '-' ≠ ch)
    (hprim : ∀ s : Cursor, s.rest = ch :: tl → s.operands = c.operands + 1 →
      ReadsBack t rest k fits (parsePrimary (depth + 1) s)) :
    ReadsBack t rest k (depth < maxNesting ∧ c.operands + 1 ≤ maxOperands ∧ fits)
      (parseUnary depth c) :=
  readsBack_parseUnary fun _ hs hk =>
    readsBack_parseUnaryOperand_primary (hs.trans hc) hblank h1 h2 h3 fun s' hs' hk' =>
      hprim s' (hs'.trans (hs.trans hc)) (hk'.trans hk)

/-- The unary level over a parenthesised expression. -/
theorem readsBack_paren {depth : Nat} {c : Cursor} {body rest : List Char} {t : Typed} {k : Nat}
    {fits : Prop} (hc : c.rest.dropWhile isBlank = '(' :: body)
    (hin : ∀ s2 : Cursor, s2.rest = body → s2.operands = c.operands + 1 →
      ReadsBack t (')' :: rest) k fits (parseOr (depth + 1) s2)) :
    ReadsBack t rest k (depth < maxNesting ∧ c.operands + 1 ≤ maxOperands ∧ fits)
      (parseUnary depth c) :=
  readsBack_primary hc (by decide) (by decide) (by decide) (by decide) fun s hs hk =>
    readsBack_parsePrimary_paren hs fun s2 hs2 hk2 => hin s2 hs2 (hk2.trans hk)

/-! ## Operator nodes -/

/-- A binary node is read back when its operands are. -/
theorem readsBackAt_binary {op : BinaryOp} {l r : Expr} {τl τr τ : ValueType}
    (hjoin : Joins op τl τr τ) (hl : ReadsBackAt l τl) (hr : ReadsBackAt r τr) :
    ReadsBackAt (.binary op l r) τ := by
  intro depth c rest hc _
  simp only [Expr.render_binary_toList, List.cons_append, List.append_assoc,
    List.nil_append] at hc
  refine (readsBack_paren hc fun s2 hs2 hk2 =>
    (parseOr_binary hjoin hl hr s2 hs2).congr (by rw [hk2]) (by rw [hk2])).congr
    (by simp only [Expr.printOperands]; omega) ?_
  simp only [Expr.printNesting, Expr.printOperands]
  omega

/-- A unary node is read back when its operand is: the operand's parentheses take a unary level
of their own. -/
theorem readsBackAt_unary {op : UnaryOp} {x : Expr} {τ : ValueType}
    (hτ : τ = if op = .not then .bool else .number) (hx : ReadsBackAt x τ) :
    ReadsBackAt (.unary op x) τ := by
  intro depth c rest hc _
  simp only [Expr.render_unary_toList, List.cons_append, List.append_assoc,
    List.nil_append] at hc
  obtain ⟨a, hsym, ha⟩ := op.exists_symbol
  have hin : ∀ s : Cursor, s.rest = c.rest.dropWhile isBlank → s.operands = c.operands + 1 →
      ReadsBack (.unary op x, τ) rest (c.operands + 2 + x.printOperands)
        (depth + 1 < maxNesting ∧ c.operands + 2 ≤ maxOperands ∧
          (depth + 2 + x.printNesting ≤ maxNesting ∧
            c.operands + 2 + x.printOperands ≤ maxOperands))
        (parseUnaryOperand (depth + 1) s.pos s) := by
    intro s hs hk
    refine readsBack_parseUnaryOperand_unary (hs.trans hc) hτ fun s2 hs2 hk2 => ?_
    have hs2' : s2.rest.dropWhile isBlank = '(' :: (x.render.toList ++ ')' :: rest) := by
      rw [hs2, dropWhile_isBlank_cons (by decide)]
    refine (readsBack_paren hs2' fun s4 hs4 hk4 => ?_).congr rfl (by rw [hk2, hk])
    have hread := hx (depth + 2) s4 (')' :: rest)
      (by rw [hs4, Expr.dropWhile_isBlank_render]) ⟨')', rest, rfl, Or.inr (Or.inl rfl)⟩
    rw [← parseLevel_six] at hread
    exact (readsBack_parseLevel rfl (Or.inl rfl) le_rfl (Nat.zero_le _) hread).congr
      (by rw [hk4, hk2, hk]) (by rw [hk4, hk2, hk])
  refine (readsBack_parseUnary hin).congr (by simp only [Expr.printOperands]; omega) ?_
  simp only [Expr.printNesting, Expr.printOperands]
  omega

/-! ## Number literals -/

/-- Digits are read whole into a number literal. -/
theorem numberChars_digits (b : Bool) {a : List Char} (ha : ∀ c ∈ a, c.isDigit = true)
    (rest : List Char) : numberChars b (a ++ rest) = a ++ numberChars b rest := by
  induction a with
  | nil => rfl
  | cons c a ih =>
    rw [List.forall_mem_cons] at ha
    simp only [List.cons_append, numberChars, ha.1, if_true, ih ha.2]

/-- A number literal ends before a character that is neither a digit nor a point. -/
theorem numberChars_stop (b : Bool) {ch : Char} (hd : ch.isDigit = false) (hp : ch ≠ '.')
    (tl : List Char) : numberChars b (ch :: tl) = [] := by
  simp [numberChars, hd, hp]

/-- The first point of a number literal is part of it. -/
theorem numberChars_point (r : List Char) : numberChars false ('.' :: r) = '.' :: numberChars true r := by
  simp [numberChars, show ('.' : Char).isDigit = false from rfl]

/-- The positional text of digits is read whole as a number literal: digits, then at most one
point and more digits. -/
theorem numberChars_positionalText (D : Nat) (p : Int) {ch : Char} (hd : ch.isDigit = false)
    (hp : ch ≠ '.') (tl : List Char) :
    numberChars false ((Decimal.positionalText false (toString D) p).toList ++ ch :: tl) =
      (Decimal.positionalText false (toString D) p).toList := by
  have hdig : ∀ c ∈ (toString D).toList, c.isDigit = true :=
    fun _ => Decimal.isDigit_of_mem_toString
  have hzero : ∀ k, ∀ c ∈ List.replicate k '0', c.isDigit = true :=
    fun _ _ => Decimal.isDigit_of_mem_replicate
  unfold Decimal.positionalText
  simp only [Bool.false_eq_true, ↓reduceIte, String.append_empty]
  split_ifs
  · -- `0.`, zeros, then the digits
    simp only [String.toList_append, String.toList_ofList, List.append_assoc]
    rw [show ("0." : String).toList = ['0', '.'] from rfl]
    simp only [List.cons_append, List.nil_append]
    rw [← List.singleton_append, numberChars_digits _ (fun c hc => by rw [List.mem_singleton.mp hc]; rfl),
      numberChars_point,
      numberChars_digits _ (hzero _), numberChars_digits _ hdig, numberChars_stop _ hd hp,
      List.append_nil]
    rfl
  · -- digits, the point, digits
    simp only [String.toList_append, String.toList_ofList, List.append_assoc]
    rw [show (".").toList = ['.'] from rfl, List.singleton_append, List.cons_append,
      numberChars_digits _ (fun c hc => hdig c (List.mem_of_mem_take hc)), numberChars_point,
      numberChars_digits _ (fun c hc => hdig c (List.mem_of_mem_drop hc)),
      numberChars_stop _ hd hp, List.append_nil, List.nil_append]
  · -- digits and trailing zeros
    simp only [String.toList_append, String.toList_ofList, List.append_assoc]
    rw [numberChars_digits _ hdig, numberChars_digits _ (hzero _), numberChars_stop _ hd hp,
      List.append_nil]

/-- A double with a clear sign bit is not negative. -/
theorem negative_eq_false_of_toBits_lt {x : Float} {b : Decimal.Binary}
    (hx : Decimal.classify x = .finite b) (hlt : x.toBits.toNat < 2 ^ 63) : b.negative = false := by
  have hbits := Decimal.eq_packBits_of_classifyBits (UInt64.toNat_lt x.toBits) hx
  obtain ⟨s, m, q⟩ := b
  cases s
  · rfl
  · -- a set sign bit would put the pattern past `2^63`
    simp only [Decimal.packBits, Nat.pow_eq, ↓reduceIte] at hbits
    split at hbits <;> omega

/-- The plain text of a finite double with a clear sign bit: `0`, or the positional text of its
shortest digits. -/
theorem render_plain_unsigned {x : Float} (hlt : x.toBits.toNat < 2 ^ 63)
    (hfin : Decimal.isFinite x = true) :
    Decimal.plain.render x = "0" ∨
      ∃ (D : Nat) (E : Int), Decimal.plain.render x =
        Decimal.positionalText false (toString D) ((toString D).length + E) := by
  rcases hc : Decimal.classify x with _ | s | ⟨s, m, q⟩
  · simp [Decimal.isFinite, hc] at hfin
  · simp [Decimal.isFinite, hc] at hfin
  · have hs : s = false := negative_eq_false_of_toBits_lt hc hlt
    subst hs
    by_cases hm : m = 0
    · left
      simp [Decimal.Layout.render, hc, hm, Decimal.plain]
    · right
      rw [Decimal.render_plain_finite hc hm, if_neg Bool.false_ne_true, String.empty_append]
      exact ⟨_, _, rfl⟩

/-- The plain text of a finite double with a clear sign bit is read whole as a number literal. -/
theorem numberChars_render_plain {x : Float} (hlt : x.toBits.toNat < 2 ^ 63)
    (hfin : Decimal.isFinite x = true) {ch : Char} (hd : ch.isDigit = false) (hp : ch ≠ '.')
    (tl : List Char) :
    numberChars false ((Decimal.plain.render x).toList ++ ch :: tl) =
      (Decimal.plain.render x).toList := by
  rcases render_plain_unsigned hlt hfin with h | ⟨D, E, h⟩ <;> rw [h]
  · have hzero : ∀ c ∈ ['0'], c.isDigit = true := fun c hc => by
      rw [List.mem_singleton.mp hc]
      rfl
    rw [show ("0" : String).toList = ['0'] from rfl, numberChars_digits _ hzero,
      numberChars_stop _ hd hp, List.append_nil]
  · exact numberChars_positionalText D _ hd hp tl

/-- The plain text of a finite double with a clear sign bit starts with a digit. -/
theorem exists_head_render_plain {x : Float} (hlt : x.toBits.toNat < 2 ^ 63)
    (hfin : Decimal.isFinite x = true) :
    ∃ d tl, (Decimal.plain.render x).toList = d :: tl ∧ d.isDigit = true := by
  have hne := mt String.toList_eq_nil_iff.mp (Config.render_plain_ne_empty x)
  obtain ⟨d, tl, hdl⟩ := List.exists_cons_of_ne_nil hne
  refine ⟨d, tl, hdl, ?_⟩
  rcases render_plain_unsigned hlt hfin with h | ⟨D, E, h⟩ <;> rw [h] at hdl
  · rw [show ("0" : String).toList = ['0'] from rfl] at hdl
    obtain ⟨rfl, -⟩ := List.cons.inj hdl
    rfl
  · exact Decimal.head_positionalText D E d (by rw [hdl]; rfl)

/-! ## Primaries -/

/-- A number literal: digits first, then the characters `numberChars` takes, which read as the
double `x`. -/
theorem readsBack_parsePrimary_literal {depth : Nat} {s : Cursor} {lit rest : List Char}
    {x : Float} (hs : s.rest = lit ++ rest) (hhead : ∃ d dl, lit = d :: dl ∧ d.isDigit = true)
    (hcs : numberChars false (lit ++ rest) = lit)
    (hread : Decimal.readFloat (String.ofList lit) = .ok x) :
    ReadsBack (.number x, .number) rest s.operands True (parsePrimary depth s) := by
  obtain ⟨d, dl, rfl, hdd⟩ := hhead
  rw [parsePrimary]
  rcases hsk : s.skip with ⟨s', hs'⟩
  obtain ⟨hsr, hso⟩ := Cursor.skip_facts hsk
  rw [hs, List.cons_append, dropWhile_isBlank_cons (Config.isBlank_of_isDigit hdd)] at hsr
  have hopen : s'.eat ['('] = none :=
    Cursor.eat_cons_ne hsr (by rintro rfl; exact absurd hdd (by decide))
  dsimp only
  rw [hopen]
  dsimp only
  split
  · -- no quote stands at a digit
    rename_i heq
    rw [hsr] at heq
    obtain ⟨rfl, -⟩ := List.cons.inj heq
    exact absurd hdd (by decide)
  · rename_i c' tl' _ heq
    rw [hsr] at heq
    obtain ⟨rfl, -⟩ := List.cons.inj heq
    rw [if_pos (Or.inl hdd), readsBack_widen]
    -- the literal is read whole, and reads as `x`
    have hsr' : s'.rest = (d :: dl) ++ rest := by rw [hsr, List.cons_append]
    have hany : (d :: dl).any Char.isDigit = true := by simp [hdd]
    obtain ⟨⟨e, he⟩, heat, her, heo⟩ := Cursor.eat_append hsr' (List.cons_ne_nil _ _)
    simp only [parseNumber, hsr', hcs, hany, if_true, heat, hread]
    exact ⟨trivial, rfl, her, heo.trans hso⟩
  · rename_i heq
    rw [hsr] at heq
    cases heq

/-- A number literal: the plain text of a finite double with a clear sign bit reads back as the
double itself. -/
theorem readsBack_parsePrimary_number {depth : Nat} {s : Cursor} {x : Float} {rest : List Char}
    (hlt : x.toBits.toNat < 2 ^ 63) (hfin : Decimal.isFinite x = true)
    (hs : s.rest = (Decimal.plain.render x).toList ++ rest) (hrest : Delimited rest) :
    ReadsBack (.number x, .number) rest s.operands True (parsePrimary depth s) := by
  obtain ⟨ch, tl, rfl, hch⟩ := hrest
  have hd : ch.isDigit = false := by rcases hch with rfl | rfl | rfl | rfl <;> rfl
  have hp : ch ≠ '.' := by rcases hch with rfl | rfl | rfl | rfl <;> decide
  obtain ⟨d, dl, hdl, hdd⟩ := exists_head_render_plain hlt hfin
  refine readsBack_parsePrimary_literal hs ⟨d, dl, hdl, hdd⟩
    (numberChars_render_plain hlt hfin hd hp tl) ?_
  rw [String.ofList_toList, Decimal.readFloat_render_plain]

/-- A quoted text with no quote inside reads back as that text. -/
theorem readsBack_parseString {c : Cursor} {str : String} {rest : List Char}
    (hstr : '"' ∉ str.toList) (hc : c.rest = '"' :: (str.toList ++ '"' :: rest)) :
    ReadsBack (.text str, .text) rest c.operands True (parseString c) := by
  have hne : ∀ a ∈ str.toList, (a != '"') = true := fun a ha => by
    rw [bne_iff_ne]
    rintro rfl
    exact hstr ha
  unfold parseString
  simp only [hc, List.takeWhile_append_of_pos hne, List.dropWhile_append_of_pos hne]
  simp only [List.takeWhile_cons, List.dropWhile_cons, bne_self_eq_false, Bool.false_eq_true,
    ↓reduceIte, List.append_nil, List.length_cons, List.length_append]
  rw [dif_pos (by omega)]
  exact ⟨trivial, by rw [String.ofList_toList], rfl, rfl⟩

/-- A text literal as a primary. -/
theorem readsBack_parsePrimary_text {depth : Nat} {s : Cursor} {str : String} {rest : List Char}
    (hstr : '"' ∉ str.toList) (hs : s.rest = '"' :: (str.toList ++ '"' :: rest)) :
    ReadsBack (.text str, .text) rest s.operands True (parsePrimary depth s) := by
  rw [parsePrimary]
  rcases hsk : s.skip with ⟨s', hs'⟩
  obtain ⟨hsr, hso⟩ := Cursor.skip_facts hsk
  rw [hs, dropWhile_isBlank_cons (by decide)] at hsr
  have hopen : s'.eat ['('] = none := Cursor.eat_cons_ne hsr (by decide)
  dsimp only
  rw [hopen]
  dsimp only
  split
  · rw [readsBack_widen, ← hso]
    exact readsBack_parseString hstr hsr
  · rename_i hquote heq
    rw [hsr] at heq
    exact (hquote (List.cons.inj heq).1.symm).elim
  · rename_i heq
    rw [hsr] at heq
    cases heq

/-! ## Words -/

/-- A letter other than `n` starts no operator, parenthesis, literal or blank. -/
theorem wordStart_facts {d : Char} (h : d.isAlpha = true) (hn : d ≠ 'n') :
    isBlank d = false ∧ d.isDigit = false ∧ '!' ≠ d ∧ 'n' ≠ d ∧ '-' ≠ d ∧ '(' ≠ d ∧ '"' ≠ d ∧
      d ≠ '.' := by
  have hb : 65 ≤ d.toNat ∧ d.toNat ≤ 122 := by
    simp only [Char.isAlpha, Char.isUpper, Char.isLower, Bool.or_eq_true, Bool.and_eq_true,
      decide_eq_true_eq, UInt32.le_iff_toNat_le, ge_iff_le] at h
    have : d.toNat = d.val.toNat := rfl
    have h1 : ('A' : Char).val.toNat = 65 := rfl
    have h2 : ('Z' : Char).val.toNat = 90 := rfl
    have h3 : ('a' : Char).val.toNat = 97 := rfl
    have h4 : ('z' : Char).val.toNat = 122 := rfl
    omega
  have hdig : d.isDigit = false := by
    simp only [Char.isDigit, Bool.and_eq_false_iff, decide_eq_false_iff_not,
      UInt32.le_iff_toNat_le, ge_iff_le]
    have : d.toNat = d.val.toNat := rfl
    have h9 : ('9' : Char).val.toNat = 57 := rfl
    omega
  refine ⟨Config.isBlank_of_printable (by omega) (by omega), hdig, ?_, hn.symm, ?_, ?_, ?_, ?_⟩ <;>
    rintro rfl <;> exact absurd hb (by decide)

/-- The word at a keyword that a non-word character follows is the keyword. -/
theorem Cursor.word_of_keyword {s : Cursor} {kw rest : List Char} (hs : s.rest = kw ++ rest)
    (hkw : kw.all isWordChar = true) {d : Char} {tl : List Char} (hd : kw = d :: tl)
    (hdig : d.isDigit = false) (hrest : ∃ ch tl, rest = ch :: tl ∧ isWordChar ch = false) :
    s.word = kw := by
  obtain ⟨ch, tl', rfl, hch⟩ := hrest
  have hall : ∀ a ∈ kw, isWordChar a = true := List.all_eq_true.mp hkw
  unfold Cursor.word
  rw [hs, hd, List.cons_append]
  simp only [hdig, Bool.false_eq_true, ↓reduceIte]
  rw [← List.cons_append, ← hd, List.takeWhile_append_of_pos hall, List.takeWhile_cons, hch]
  simp

/-- The unary level over a word: the primary finds no literal there and reads the word. -/
theorem readsBack_word {depth : Nat} {c : Cursor} {kw rest : List Char} {t : Typed}
    {ρ : List Char} {k : Nat} {fits : Prop} (hc : c.rest.dropWhile isBlank = kw ++ rest)
    (hkw : kw.all isWordChar = true) (hd : ∃ d tl, kw = d :: tl ∧ d.isAlpha = true ∧ d ≠ 'n')
    (hrest : ∃ ch tl, rest = ch :: tl ∧ isWordChar ch = false)
    (hword : ∀ (c' s : Cursor) (hs : s.rest.length ≤ c'.rest.length) (s2 : Cursor) h2,
      s.word = kw → s.eat kw = some ⟨s2, h2⟩ → s2.rest = rest → s2.operands = c.operands + 1 →
        ReadsBack t ρ k fits (parseWord (depth + 1) c' s hs)) :
    ReadsBack t ρ k (depth < maxNesting ∧ c.operands + 1 ≤ maxOperands ∧ fits)
      (parseUnary depth c) := by
  obtain ⟨d, tl, hkd, hα, hn⟩ := hd
  obtain ⟨hblank, hdig, h1, h2, h3, h4, h5, h6⟩ := wordStart_facts hα hn
  have hc' : c.rest.dropWhile isBlank = d :: (tl ++ rest) := by rw [hc, hkd, List.cons_append]
  refine readsBack_primary hc' hblank h1 h2 h3 fun s hs hk => ?_
  rw [parsePrimary]
  rcases hsk : s.skip with ⟨s', hs'⟩
  obtain ⟨hsr, hso⟩ := Cursor.skip_facts hsk
  rw [hs, dropWhile_isBlank_cons hblank] at hsr
  have hopen : s'.eat ['('] = none := Cursor.eat_cons_ne hsr h4
  dsimp only
  rw [hopen]
  dsimp only
  split
  · rename_i heq
    rw [hsr] at heq
    exact absurd (List.cons.inj heq).1.symm h5
  · rename_i _ heq
    rw [hsr] at heq
    obtain ⟨rfl, -⟩ := List.cons.inj heq
    rw [if_neg (by simp [hdig, h6])]
    have hsr' : s'.rest = kw ++ rest := by rw [hsr, hkd, List.cons_append]
    obtain ⟨⟨s2, hlt⟩, heat, hs2r, hs2o⟩ := Cursor.eat_append hsr' (by rw [hkd]; simp)
    exact hword s s' hs' s2 hlt (Cursor.word_of_keyword hsr' hkw hkd hdig hrest) heat hs2r
      (hs2o.trans (hso.trans hk))
  · rename_i heq
    rw [hsr] at heq
    cases heq

/-- The characters that may follow an operand are no word characters. -/
theorem delimited_not_word {rest : List Char} (h : Delimited rest) :
    ∃ ch tl, rest = ch :: tl ∧ isWordChar ch = false := by
  obtain ⟨ch, tl, rfl, hch⟩ := h
  exact ⟨ch, tl, rfl, by rcases hch with rfl | rfl | rfl | rfl <;> decide⟩

/-! ## Leaves -/

/-- A leaf costs one nesting level and one operand. -/
theorem leaf_fits {e : Expr} (hn : e.printNesting = 1) (ho : e.printOperands = 1) (depth k : Nat) :
    (depth < maxNesting ∧ k + 1 ≤ maxOperands ∧ True) ↔
      (depth + e.printNesting ≤ maxNesting ∧ k + e.printOperands ≤ maxOperands) := by
  rw [hn, ho, and_true]
  omega

theorem readsBackAt_number {x : Float} (hlt : x.toBits.toNat < 2 ^ 63)
    (hfin : Decimal.isFinite x = true) : ReadsBackAt (.number x) .number := by
  intro depth c rest hc hrest
  rw [Expr.render_number] at hc
  obtain ⟨d, dl, hdl, hdd⟩ := exists_head_render_plain hlt hfin
  have hblank := Config.isBlank_of_isDigit hdd
  have hc' : c.rest.dropWhile isBlank = d :: (dl ++ rest) := by rw [hc, hdl, List.cons_append]
  have hprim : ∀ s : Cursor, s.rest = d :: (dl ++ rest) → s.operands = c.operands + 1 →
      ReadsBack (.number x, .number) rest (c.operands + 1) True (parsePrimary (depth + 1) s) := by
    intro s hs hk
    rw [← hk]
    exact readsBack_parsePrimary_number hlt hfin (by rw [hs, hdl, List.cons_append]) hrest
  refine (readsBack_primary hc' hblank ?_ ?_ ?_ hprim).congr rfl (leaf_fits rfl rfl _ _) <;>
    · rintro rfl
      exact absurd hdd (by decide)

theorem readsBackAt_text {str : String} (hstr : '"' ∉ str.toList) :
    ReadsBackAt (.text str) .text := by
  intro depth c rest hc _
  rw [Expr.render_text_toList, List.cons_append, List.append_assoc, List.singleton_append] at hc
  have hprim : ∀ s : Cursor, s.rest = '"' :: (str.toList ++ '"' :: rest) →
      s.operands = c.operands + 1 →
      ReadsBack (.text str, .text) rest (c.operands + 1) True (parsePrimary (depth + 1) s) := by
    intro s hs hk
    rw [← hk]
    exact readsBack_parsePrimary_text hstr hs
  exact (readsBack_primary hc (by decide) (by decide) (by decide) (by decide) hprim).congr rfl
    (leaf_fits rfl rfl _ _)

theorem readsBackAt_bool (b : Bool) : ReadsBackAt (.bool b) .bool := by
  intro depth c rest hc hrest
  have hfits := leaf_fits (e := .bool b) rfl rfl depth c.operands
  cases b
  · rw [show (Expr.bool false).render = "false" from rfl] at hc
    refine (readsBack_word hc rfl ⟨_, _, rfl, by decide, by decide⟩ (delimited_not_word hrest)
      fun c' s hs s2 h2 hw heat hs2r hs2o => ?_).congr rfl hfits
    rw [parseWord]
    simp only [hw, heat, String.ofList_toList]
    exact ⟨trivial, rfl, hs2r, hs2o⟩
  · rw [show (Expr.bool true).render = "true" from rfl] at hc
    refine (readsBack_word hc rfl ⟨_, _, rfl, by decide, by decide⟩ (delimited_not_word hrest)
      fun c' s hs s2 h2 hw heat hs2r hs2o => ?_).congr rfl hfits
    rw [parseWord]
    simp only [hw, heat, String.ofList_toList]
    exact ⟨trivial, rfl, hs2r, hs2o⟩

theorem readsBackAt_instrument : ReadsBackAt .instrument .text := by
  intro depth c rest hc hrest
  rw [show Expr.instrument.render = "instrument" from rfl] at hc
  refine (readsBack_word hc rfl ⟨_, _, rfl, by decide, by decide⟩ (delimited_not_word hrest)
    fun c' s hs s2 h2 hw heat hs2r hs2o => ?_).congr rfl (leaf_fits rfl rfl _ _)
  rw [parseWord]
  simp only [hw, heat, String.ofList_toList]
  exact ⟨trivial, rfl, hs2r, hs2o⟩

theorem readsBackAt_time : ReadsBackAt .time .number := by
  intro depth c rest hc hrest
  rw [show Expr.time.render = "time" from rfl] at hc
  refine (readsBack_word hc rfl ⟨_, _, rfl, by decide, by decide⟩ (delimited_not_word hrest)
    fun c' s hs s2 h2 hw heat hs2r hs2o => ?_).congr rfl (leaf_fits rfl rfl _ _)
  rw [parseWord]
  simp only [hw, heat, String.ofList_toList]
  exact ⟨trivial, rfl, hs2r, hs2o⟩

/-! ## Accessor calls -/

/-- An argument of an accessor: the loosest level reads it up to the comma or parenthesis after
it, and its type is one the position takes. -/
theorem readsBack_parseArgument {depth : Nat} {c : Cursor} {e : Expr} {τ : ValueType}
    {types : List ValueType} {what : String} {ch : Char} {rest : List Char}
    (he : ReadsBackAt e τ) (hτ : τ ∈ types)
    (hc : c.rest.dropWhile isBlank = e.render.toList ++ ch :: rest) (hch : ch = ',' ∨ ch = ')') :
    ReadsBack (e, τ) (ch :: rest) (c.operands + e.printOperands)
      (depth + e.printNesting ≤ maxNesting ∧ c.operands + e.printOperands ≤ maxOperands)
      (parseArgument depth c types what) := by
  rw [parseArgument]
  rcases hsk : c.skip with ⟨s, hs⟩
  obtain ⟨hsr, hso⟩ := Cursor.skip_facts hsk
  have hread := he depth s (ch :: rest) (by rw [hsr, hc, Expr.dropWhile_isBlank_render])
    ⟨ch, rest, rfl, by rcases hch with rfl | rfl <;> decide⟩
  rw [← parseLevel_six] at hread
  have hor := readsBack_parseLevel rfl (by rcases hch with rfl | rfl <;> decide) le_rfl
    (Nat.zero_le 6) hread
  rw [parseLevel_zero, hso] at hor
  dsimp only
  rcases hp : parseOr depth s with err | ⟨⟨x, σ⟩, d, hd⟩
  · rw [hp] at hor
    exact hor
  · rw [hp] at hor
    obtain ⟨hf, hxt, hdr, hdk⟩ := hor
    obtain ⟨rfl, rfl⟩ := Prod.mk.inj hxt
    dsimp only
    rw [if_pos (List.elem_eq_true_of_mem hτ)]
    exact ⟨hf, rfl, hdr, hdk⟩

/-- An argument read back, and what follows it read from where it stopped. -/
theorem readsBack_argumentThen {c₀ c : Cursor} {depth : Nat} {types : List ValueType}
    {what : String} {e : Expr} {τ : ValueType} {ρ : List Char} {k : Nat} {fits : Prop}
    {t' : Typed} {ρ' : List Char} {k' : Nat} {fits' : Prop}
    {K : Expr → (d : Cursor) → d.rest.length ≤ c.rest.length → Outcome c₀ Typed}
    (harg : ReadsBack (e, τ) ρ k fits (parseArgument depth c types what))
    (hK : ∀ d hd, d.rest = ρ → d.operands = k → fits → ReadsBack t' ρ' k' fits' (K e d hd))
    (hfits : fits' → fits) :
    ReadsBack t' ρ' k' fits' (match parseArgument depth c types what with
      | .error err => .error err
      | .ok ((x, _), ⟨d, hd⟩) => K x d hd) := by
  rcases hp : parseArgument depth c types what with err | ⟨⟨x, σ⟩, d, hd⟩
  · rw [hp] at harg
    exact ⟨fun h => harg.1 (hfits h), harg.2⟩
  · rw [hp] at harg
    obtain ⟨hf, hxt, hdr, hdk⟩ := harg
    obtain ⟨rfl, -⟩ := Prod.mk.inj hxt
    exact hK d hd hdr hdk hf

/-- A delimiter read past, and what follows it. -/
theorem readsBack_expectThen {c₀ c : Cursor} {ch : Char} {tail : List Char} {t' : Typed}
    {ρ' : List Char} {k' : Nat} {fits' : Prop}
    {K : (d : Cursor) → d.rest.length < c.rest.length → Outcome c₀ Typed}
    (hc : c.rest.dropWhile isBlank = ch :: tail)
    (hK : ∀ d hd, d.rest = tail → d.operands = c.operands → ReadsBack t' ρ' k' fits' (K d hd)) :
    ReadsBack t' ρ' k' fits' (match c.expect ch with
      | .error err => .error err
      | .ok ⟨d, hd⟩ => K d hd) := by
  obtain ⟨⟨d, hd⟩, hexp, hdr, hdo⟩ := Cursor.expect_of_dropWhile hc
  rw [hexp]
  exact hK d hd hdr hdo

/-- A literal check that passes, the delimiter after it, and what follows. -/
theorem readsBack_checkThen {c₀ c : Cursor} {x : Expr} {ch : Char}
    {tail : List Char} {t' : Typed} {ρ' : List Char} {k' : Nat} {fits' : Prop}
    {K : Expr → (d : Cursor) → d.rest.length < c.rest.length → Outcome c₀ Typed}
    (hc : c.rest.dropWhile isBlank = ch :: tail)
    (hK : ∀ d hd, d.rest = tail → d.operands = c.operands → ReadsBack t' ρ' k' fits' (K x d hd)) :
    ReadsBack t' ρ' k' fits' (match (.ok x : Except ParseError Expr), c.expect ch with
      | .error err, _ => .error err
      | .ok _, .error err => .error err
      | .ok y, .ok ⟨d, hd⟩ => K y d hd) := by
  obtain ⟨⟨d, hd⟩, hexp, hdr, hdo⟩ := Cursor.expect_of_dropWhile hc
  rw [hexp]
  exact hK d hd hdr hdo

/-- A known indicator name passes its check unchanged. -/
theorem checkIndicatorName_of_known {pos : Nat} {n : Expr} (hn : n.KnownName) :
    checkIndicatorName pos n = .ok n := by
  cases n with
  | text s =>
    obtain ⟨k, rfl⟩ := hn
    simp [checkIndicatorName, Indicator.ofName?_name]
  | _ => rfl

/-- A kept label, or a percentile that is no literal, passes its check unchanged. -/
theorem checkPercentile_of_known {pos : Nat} {p : Expr} (hp : p.KnownLabel)
    (hnum : ¬ p.IsNumber) : checkPercentile pos p = .ok p := by
  cases p with
  | text s =>
    simp only [checkPercentile, List.elem_eq_true_of_mem (show s ∈ Quantile.labels from hp),
      ↓reduceIte]
  | number x => exact absurd trivial hnum
  | _ => rfl

/-- The arguments of `Indicator(…)`, printed after the word. -/
theorem readsBack_parseIndicatorCall {depth : Nat} {c : Cursor} {n i t : Expr}
    {rest : List Char} (hn : ReadsBackAt n .text) (hi : ReadsBackAt i .text)
    (ht : ReadsBackAt t .number) (hname : n.KnownName)
    (hc : c.rest = '(' :: (n.render.toList ++ ',' :: ' ' :: (i.render.toList ++ ',' :: ' ' ::
      (t.render.toList ++ ')' :: rest)))) :
    ReadsBack (.indicator n i t, .number) rest
      (c.operands + n.printOperands + i.printOperands + t.printOperands)
      ((depth + n.printNesting ≤ maxNesting ∧ c.operands + n.printOperands ≤ maxOperands) ∧
        (depth + i.printNesting ≤ maxNesting ∧
          c.operands + n.printOperands + i.printOperands ≤ maxOperands) ∧
        (depth + t.printNesting ≤ maxNesting ∧
          c.operands + n.printOperands + i.printOperands + t.printOperands ≤ maxOperands))
      (parseIndicatorCall depth c) := by
  have hspace : isBlank ' ' = true := by decide
  rw [parseIndicatorCall]
  refine readsBack_expectThen (by rw [hc, dropWhile_isBlank_cons (by decide)])
    fun c1 _ hc1 hk1 => ?_
  refine readsBack_argumentThen (readsBack_parseArgument hn (List.mem_singleton_self _)
    (by rw [hc1, Expr.dropWhile_isBlank_render]) (Or.inl rfl)) (fun c2 _ hc2 hk2 hfn => ?_)
    (fun h => by rw [hk1]; exact h.1)
  rw [checkIndicatorName_of_known hname]
  refine readsBack_checkThen (by rw [hc2, dropWhile_isBlank_cons (by decide)])
    fun c3 _ hc3 hk3 => ?_
  refine readsBack_argumentThen (readsBack_parseArgument hi (List.mem_singleton_self _)
    (by rw [hc3, List.dropWhile_cons_of_pos hspace, Expr.dropWhile_isBlank_render]) (Or.inl rfl))
    (fun c4 _ hc4 hk4 hfi => ?_) (fun h => by rw [hk3, hk2, hk1]; exact h.2.1)
  refine readsBack_expectThen (by rw [hc4, dropWhile_isBlank_cons (by decide)])
    fun c5 _ hc5 hk5 => ?_
  refine readsBack_argumentThen (readsBack_parseArgument ht (List.mem_singleton_self _)
    (by rw [hc5, List.dropWhile_cons_of_pos hspace, Expr.dropWhile_isBlank_render]) (Or.inr rfl))
    (fun c6 _ hc6 hk6 hft => ?_) (fun h => by rw [hk5, hk4, hk3, hk2, hk1]; exact h.2.2)
  refine readsBack_expectThen (by rw [hc6, dropWhile_isBlank_cons (by decide)])
    fun c7 _ hc7 hk7 => ?_
  exact ⟨by omega, rfl, hc7, show c7.operands = _ by omega⟩

/-- The arguments of `IndQuantile(…)`, printed after the word. -/
theorem readsBack_parseQuantileCall {depth : Nat} {c : Cursor} {n p i t : Expr} {τp : ValueType}
    {rest : List Char} (hn : ReadsBackAt n .text) (hp : ReadsBackAt p τp)
    (hi : ReadsBackAt i .text) (ht : ReadsBackAt t .number) (hτp : τp = .text ∨ τp = .number)
    (hname : n.KnownName) (hlabel : p.KnownLabel) (hnum : ¬ p.IsNumber)
    (hc : c.rest = '(' :: (n.render.toList ++ ',' :: ' ' :: (p.render.toList ++ ',' :: ' ' ::
      (i.render.toList ++ ',' :: ' ' :: (t.render.toList ++ ')' :: rest))))) :
    ReadsBack (.quantile n p i t, .number) rest
      (c.operands + n.printOperands + p.printOperands + i.printOperands + t.printOperands)
      ((depth + n.printNesting ≤ maxNesting ∧ c.operands + n.printOperands ≤ maxOperands) ∧
        (depth + p.printNesting ≤ maxNesting ∧
          c.operands + n.printOperands + p.printOperands ≤ maxOperands) ∧
        (depth + i.printNesting ≤ maxNesting ∧
          c.operands + n.printOperands + p.printOperands + i.printOperands ≤ maxOperands) ∧
        (depth + t.printNesting ≤ maxNesting ∧ c.operands + n.printOperands + p.printOperands +
          i.printOperands + t.printOperands ≤ maxOperands))
      (parseQuantileCall depth c) := by
  have hspace : isBlank ' ' = true := by decide
  have hmem : τp ∈ [ValueType.text, .number] := by rcases hτp with rfl | rfl <;> simp
  rw [parseQuantileCall]
  refine readsBack_expectThen (by rw [hc, dropWhile_isBlank_cons (by decide)])
    fun c1 _ hc1 hk1 => ?_
  refine readsBack_argumentThen (readsBack_parseArgument hn (List.mem_singleton_self _)
    (by rw [hc1, Expr.dropWhile_isBlank_render]) (Or.inl rfl)) (fun c2 _ hc2 hk2 hfn => ?_)
    (fun h => by rw [hk1]; exact h.1)
  rw [checkIndicatorName_of_known hname]
  refine readsBack_checkThen (by rw [hc2, dropWhile_isBlank_cons (by decide)])
    fun c3 _ hc3 hk3 => ?_
  refine readsBack_argumentThen (readsBack_parseArgument hp hmem
    (by rw [hc3, List.dropWhile_cons_of_pos hspace, Expr.dropWhile_isBlank_render]) (Or.inl rfl))
    (fun c4 _ hc4 hk4 hfp => ?_) (fun h => by rw [hk3, hk2, hk1]; exact h.2.1)
  rw [checkPercentile_of_known hlabel hnum]
  refine readsBack_checkThen (by rw [hc4, dropWhile_isBlank_cons (by decide)])
    fun c5 _ hc5 hk5 => ?_
  refine readsBack_argumentThen (readsBack_parseArgument hi (List.mem_singleton_self _)
    (by rw [hc5, List.dropWhile_cons_of_pos hspace, Expr.dropWhile_isBlank_render]) (Or.inl rfl))
    (fun c6 _ hc6 hk6 hfi => ?_) (fun h => by rw [hk5, hk4, hk3, hk2, hk1]; exact h.2.2.1)
  refine readsBack_expectThen (by rw [hc6, dropWhile_isBlank_cons (by decide)])
    fun c7 _ hc7 hk7 => ?_
  refine readsBack_argumentThen (readsBack_parseArgument ht (List.mem_singleton_self _)
    (by rw [hc7, List.dropWhile_cons_of_pos hspace, Expr.dropWhile_isBlank_render]) (Or.inr rfl))
    (fun c8 _ hc8 hk8 hft => ?_)
    (fun h => by rw [hk7, hk6, hk5, hk4, hk3, hk2, hk1]; exact h.2.2.2)
  refine readsBack_expectThen (by rw [hc8, dropWhile_isBlank_cons (by decide)])
    fun c9 _ hc9 hk9 => ?_
  exact ⟨by omega, rfl, hc9, show c9.operands = _ by omega⟩

/-- An indicator accessor is read back when its arguments are and its literal name is known. -/
theorem readsBackAt_indicator {n i t : Expr} (hn : ReadsBackAt n .text)
    (hi : ReadsBackAt i .text) (ht : ReadsBackAt t .number) (hname : n.KnownName) :
    ReadsBackAt (.indicator n i t) .number := by
  intro depth c rest hc _
  simp only [Expr.render_indicator_toList, List.append_assoc, List.cons_append,
    List.nil_append] at hc
  refine (readsBack_word hc rfl ⟨_, _, rfl, by decide, by decide⟩ ⟨'(', _, rfl, by decide⟩
    fun c' s hs s2 h2 hw heat hs2r hs2o => by
      rw [parseWord]
      simp only [hw, heat, String.ofList_toList, readsBack_widen]
      exact (readsBack_parseIndicatorCall hn hi ht hname hs2r).congr (by rw [hs2o])
        (by rw [hs2o])).congr ?_ ?_
  · simp only [Expr.printOperands]
    omega
  · simp only [Expr.printNesting, Expr.printOperands]
    omega

/-- A quantile accessor is read back when its arguments are, its literal name is known and its
percentile is a kept label or no literal. -/
theorem readsBackAt_quantile {n p i t : Expr} {τp : ValueType} (hn : ReadsBackAt n .text)
    (hp : ReadsBackAt p τp) (hi : ReadsBackAt i .text) (ht : ReadsBackAt t .number)
    (hτp : τp = .text ∨ τp = .number) (hname : n.KnownName) (hlabel : p.KnownLabel)
    (hnum : ¬ p.IsNumber) : ReadsBackAt (.quantile n p i t) .number := by
  intro depth c rest hc _
  simp only [Expr.render_quantile_toList, List.append_assoc, List.cons_append,
    List.nil_append] at hc
  refine (readsBack_word hc rfl ⟨_, _, rfl, by decide, by decide⟩ ⟨'(', _, rfl, by decide⟩
    fun c' s hs s2 h2 hw heat hs2r hs2o => by
      rw [parseWord]
      simp only [hw, heat, String.ofList_toList, readsBack_widen]
      exact (readsBack_parseQuantileCall hn hp hi ht hτp hname hlabel hnum hs2r).congr
        (by rw [hs2o]) (by rw [hs2o])).congr ?_ ?_
  · simp only [Expr.printOperands]
    omega
  · simp only [Expr.printNesting, Expr.printOperands]
    omega

/-! ## Every tree the parser builds -/

theorem joins_of_hasType_binary {op : BinaryOp} {τl τr τ : ValueType}
    (h : (op.family = .logical ∧ τl = .bool ∧ τr = .bool ∧ τ = .bool) ∨
      (op.family = .equality ∧ τl = τr ∧ τ = .bool) ∨
      (op.family = .comparison ∧ τl = .number ∧ τr = .number ∧ τ = .bool) ∨
      (op.family = .arithmetic ∧ τl = .number ∧ τr = .number ∧ τ = .number)) :
    Joins op τl τr τ := by
  unfold Joins
  rcases h with ⟨hop, h⟩ | ⟨hop, h⟩ | ⟨hop, h⟩ | ⟨hop, h⟩ <;> rw [hop] <;> exact h

/-- A well-typed tree whose literals source text can spell, whose accessor names are known and
whose numbers are finite is read back from its printed form. The induction follows the typing
derivation; the literal and name facts of a node split into those of its children. -/
theorem readsBackAt_of_hasType {e : Expr} {τ : ValueType} (h : HasType e τ) :
    e.SourceLiterals → e.NamesKnown → (∀ x ∈ e.numbers, Decimal.isFinite x = true) →
      ReadsBackAt e τ := by
  induction h with
  | number x =>
    intro hlit _ hfin
    exact readsBackAt_number hlit (hfin x (by simp [Expr.numbers]))
  | bool b => exact fun _ _ _ => readsBackAt_bool b
  | text s => exact fun hlit _ _ => readsBackAt_text hlit
  | instrument => exact fun _ _ _ => readsBackAt_instrument
  | time => exact fun _ _ _ => readsBackAt_time
  | not _ ih =>
    intro hlit hnames hfin
    exact readsBackAt_unary (if_pos rfl).symm (ih hlit hnames hfin)
  | negate _ ih =>
    intro hlit hnames hfin
    exact readsBackAt_unary (if_neg (by decide)).symm (ih hlit hnames hfin)
  | @logical op l r hop _ _ ihl ihr | @comparison op l r hop _ _ ihl ihr
  | @arithmetic op l r hop _ _ ihl ihr | @equality op l r _ hop _ _ ihl ihr =>
    rintro ⟨hlitl, hlitr⟩ ⟨hnamesl, hnamesr⟩ hfin
    refine readsBackAt_binary (joins_of_hasType_binary (by simp [hop]))
      (ihl hlitl hnamesl fun x hx => hfin x ?_) (ihr hlitr hnamesr fun x hx => hfin x ?_) <;>
      simp [Expr.numbers, hx]
  | indicator _ _ _ ihn ihi iht =>
    rintro ⟨hlitn, hliti, hlitt⟩ ⟨hname, hnamesn, hnamesi, hnamest⟩ hfin
    refine readsBackAt_indicator (ihn hlitn hnamesn fun x hx => hfin x ?_)
      (ihi hliti hnamesi fun x hx => hfin x ?_) (iht hlitt hnamest fun x hx => hfin x ?_) hname <;>
      simp [Expr.numbers, hx]
  | quantile _ hτ _ _ _ ihn ihp ihi iht =>
    rintro ⟨hnum, hlitn, hlitp, hliti, hlitt⟩ ⟨hname, hlabel, hnamesn, hnamesp, hnamesi, hnamest⟩
      hfin
    refine readsBackAt_quantile (ihn hlitn hnamesn fun x hx => hfin x ?_)
      (ihp hlitp hnamesp fun x hx => hfin x ?_) (ihi hliti hnamesi fun x hx => hfin x ?_)
      (iht hlitt hnamest fun x hx => hfin x ?_) hτ hname hlabel hnum <;>
      simp [Expr.numbers, hx]

/-- A program whose loosest level reads a bool-typed tree up to the template's closing text
compiles to that tree when the budgets allow, and fails on a budget otherwise. -/
theorem parseRaw_of_readsBack {p : String} {e : Expr} {k : Nat} {fits : Prop}
    (h : ReadsBack (e, .bool) (';' :: [' ', '}']) k fits
      (parseOr 0 (Cursor.skip ⟨p.toList ++ templateClose, 0, 0⟩).1)) :
    match parseRaw p with
    | .ok e' => e' = e ∧ fits
    | .error err => ¬ fits ∧ err.OverBudget := by
  unfold parseRaw
  dsimp only
  rcases hp : parseOr 0 (Cursor.skip ⟨p.toList ++ templateClose, 0, 0⟩).1 with
    err | ⟨⟨x, ty⟩, d, hd⟩
  · rw [hp] at h
    exact h
  · rw [hp] at h
    obtain ⟨hfits, hxt, hdr, -⟩ := h
    obtain ⟨rfl, rfl⟩ := Prod.mk.inj hxt
    dsimp only
    rw [if_neg (fun h => h rfl)]
    -- the semicolon, the blank and the brace of the template, then nothing
    obtain ⟨⟨d1, h1⟩, he1, hd1, -⟩ := Cursor.expect_of_dropWhile (c := d) (by
      rw [hdr]
      rfl)
    rw [he1]
    dsimp only
    obtain ⟨⟨d2, h2⟩, he2, hd2, -⟩ := Cursor.expect_of_dropWhile (c := d1) (by
      rw [hd1]
      rfl)
    rw [he2]
    dsimp only
    rw [if_pos (by rw [Cursor.skip_rest, hd2]; rfl)]
    exact ⟨rfl, hfits⟩

/-- The printed form of a bool-typed tree that reads back, spliced into the template: the
template's closing text follows it, and the whole compiles to the tree exactly when the
budgets allow, failing on a budget otherwise. -/
theorem parseRaw_render {e : Expr} (he : ReadsBackAt e .bool) :
    match parseRaw e.render with
    | .ok e' => e' = e ∧ e.printNesting ≤ maxNesting ∧ e.printOperands ≤ maxOperands
    | .error err => ¬ (e.printNesting ≤ maxNesting ∧ e.printOperands ≤ maxOperands) ∧
        err.OverBudget := by
  have hstart : (e.render.toList ++ templateClose).dropWhile isBlank =
      e.render.toList ++ ';' :: [' ', '}'] := Expr.dropWhile_isBlank_render e _
  have hread := he 0 (Cursor.skip ⟨e.render.toList ++ templateClose, 0, 0⟩).1 _
    (by rw [Cursor.skip_rest, hstart, Expr.dropWhile_isBlank_render]) ⟨';', _, rfl, by decide⟩
  rw [← parseLevel_six] at hread
  have hor := readsBack_parseLevel rfl (by decide) le_rfl (Nat.zero_le 6) hread
  rw [parseLevel_zero] at hor
  -- the budgets the loosest level spends, counted from the start of the program
  refine parseRaw_of_readsBack (hor.congr rfl ?_)
  simp

/-- A compiled program, printed and compiled again, gives back the same tree, bit for bit in its
numbers, whenever its number literals are finite: exactly when the printed form stays within
the nesting and operand budgets, and otherwise the second compile fails only on a budget. -/
theorem parse_render {p : String} {e : Expr} (hp : parse p = .ok e)
    (hfin : ∀ x ∈ e.numbers, Decimal.isFinite x = true) :
    (parse e.render = .ok e ↔ e.printNesting ≤ maxNesting ∧ e.printOperands ≤ maxOperands) ∧
      ∀ err, parse e.render = .error err → err.OverBudget := by
  obtain ⟨-, -, hnames⟩ := parse_compiled hp
  have hraw := parseRaw_render
    (readsBackAt_of_hasType (parse_hasType hp) (parse_sourceLiterals hp) hnames hfin)
  unfold parse
  rcases hr : parseRaw e.render with err | e'
  · rw [hr] at hraw
    obtain ⟨hfits, hover⟩ := hraw
    refine ⟨iff_of_false (fun h => by cases h) hfits, fun err' h => ?_⟩
    cases h
    exact hover
  · rw [hr] at hraw
    obtain ⟨rfl, hfits⟩ := hraw
    exact ⟨iff_of_true rfl hfits, fun err h => by cases h⟩

/-- A program over an accessor and a number literal reads back from its printed form. -/
theorem parse_render_indicator :
    let e : Expr := .binary .ge (.indicator (.text "SMA") .instrument .time) (.number 0)
    parse "Indicator(\"SMA\", stock, time) >= 0" = .ok e ∧
      (∀ x ∈ e.numbers, Decimal.isFinite x = true) ∧
      ((parse e.render = .ok e ↔ e.printNesting ≤ maxNesting ∧ e.printOperands ≤ maxOperands) ∧
        ∀ err, parse e.render = .error err → err.OverBudget) := by
  intro e
  have hparse : parse "Indicator(\"SMA\", stock, time) >= 0" = .ok e := by cbv
  have hfin : ∀ x ∈ e.numbers, Decimal.isFinite x = true := by
    intro x hx
    simp only [e, Expr.numbers, List.nil_append, List.mem_singleton] at hx
    rw [hx]
    decide
  exact ⟨hparse, hfin, parse_render hparse hfin⟩

/-! ## A literal beyond the doubles -/

/-- A power of ten has one digit more than its exponent. -/
theorem decimalLength_ten_pow (n : Nat) : Decimal.decimalLength (10 ^ n) = n + 1 := by
  obtain ⟨hlo, hhi⟩ := Decimal.decimalLength_bracket (Nat.pow_pos (by decide : 0 < 10))
  have hlen := Decimal.decimalLength_pos (10 ^ n)
  have h1 : Decimal.decimalLength (10 ^ n) - 1 ≤ n :=
    (Nat.pow_le_pow_iff_right (by decide)).mp hlo
  have h2 : n < Decimal.decimalLength (10 ^ n) :=
    (Nat.pow_lt_pow_iff_right (by decide)).mp hhi
  omega

/-- A one followed by at least 310 zeros lies beyond the largest double and reads as infinity. -/
theorem readFloat_one_zeros {n : Nat} (hn : 310 ≤ n) :
    Decimal.readFloat (String.ofList ('1' :: List.replicate n '0')) = .ok Decimal.infinity := by
  have hdig : ∀ c ∈ '1' :: List.replicate n '0', c.isDigit = true := by
    intro c hc
    rcases List.mem_cons.mp hc with rfl | hc
    · rfl
    · exact Decimal.isDigit_of_mem_replicate hc
  have hvalue : Decimal.digitsValue ('1' :: List.replicate n '0') = 10 ^ n := by
    rw [show '1' :: List.replicate n '0' = ['1'] ++ List.replicate n '0' from rfl,
      Decimal.digitsValue_append_zeros, show Decimal.digitsValue ['1'] = 1 from rfl, one_mul]
  have hread := Decimal.readUnsigned_digits (List.cons_ne_nil _ _) hdig
  rw [hvalue] at hread
  simp only [Decimal.readFloat, Decimal.readLiteral, String.toList_ofList]
  simp only [show ('1' : Char) ≠ '-' by decide, show ('1' : Char) ≠ '+' by decide, if_false,
    List.isEmpty_cons, Bool.false_eq_true, hread]
  simp only [Except.map, Decimal.Literal.toFloat, Decimal.DecimalText.toFloat,
    decimalLength_ten_pow]
  rw [if_neg (by positivity), if_pos (by push_cast; omega)]
  rfl

/-- The characters of a one followed by `n` zeros compared with the time, in the template. -/
theorem toList_one_zeros_gt_time (n : Nat) :
    ("1" ++ String.ofList (List.replicate n '0') ++ " > time").toList ++ templateClose =
      ('1' :: List.replicate n '0') ++ ' ' :: '>' :: ' ' :: ("time".toList ++ ';' :: [' ', '}']) := by
  simp only [String.toList_append, String.toList_ofList, templateClose]
  rw [show ("1" : String).toList = ['1'] from rfl,
    show (" > time" : String).toList = [' ', '>', ' ', 't', 'i', 'm', 'e'] from rfl,
    show ("time" : String).toList = ['t', 'i', 'm', 'e'] from rfl]
  simp

/-- A one followed by at least 310 zeros, compared with the time, compiles: the literal is read
as infinity at the unary level and handed up to the comparison, whose right operand is the
time. -/
theorem parse_one_zeros_gt_time {n : Nat} (hn : 310 ≤ n) :
    parse ("1" ++ String.ofList (List.replicate n '0') ++ " > time") =
      .ok (.binary .gt (.number Decimal.infinity) .time) := by
  let lit : List Char := '1' :: List.replicate n '0'
  let ρ : List Char := ';' :: [' ', '}']
  let tail : List Char := "time".toList ++ ρ
  let c := (Cursor.skip ⟨("1" ++ String.ofList (List.replicate n '0') ++ " > time").toList ++
    templateClose, 0, 0⟩).1
  have hc : c.rest = lit ++ ' ' :: '>' :: ' ' :: tail := by
    simp only [c, Cursor.skip_rest, toList_one_zeros_gt_time]
    exact dropWhile_isBlank_cons (by decide)
  have hsemi : ';' = ')' ∨ ';' = ',' ∨ ';' = ';' := Or.inr (Or.inr rfl)
  -- the literal at the unary level: a number read up to the blank before `>`
  have hdig : ∀ ch ∈ lit, ch.isDigit = true := by
    intro ch hch
    rcases List.mem_cons.mp hch with rfl | hch
    · rfl
    · exact Decimal.isDigit_of_mem_replicate hch
  have hcs : numberChars false (lit ++ ' ' :: '>' :: ' ' :: tail) = lit := by
    rw [numberChars_digits false hdig, numberChars_stop false (by decide) (by decide),
      List.append_nil]
  have h6 : ReadsBack (.number Decimal.infinity, .number) (' ' :: '>' :: ' ' :: tail) 1 True
      (parseLevel 0 6 c) := by
    have hc' : c.rest.dropWhile isBlank = '1' :: (List.replicate n '0' ++ ' ' :: '>' :: ' ' :: tail) := by
      rw [hc]
      exact dropWhile_isBlank_cons (by decide)
    have hco : c.operands = 0 := rfl
    refine (readsBack_primary hc' (by decide) (by decide) (by decide) (by decide)
      fun s hs hk => ?_).congr rfl (iff_of_true ⟨by decide, by rw [hco]; decide, trivial⟩ trivial)
    exact (readsBack_parsePrimary_literal hs ⟨_, _, rfl, rfl⟩ hcs
      (readFloat_one_zeros hn)).congr hk Iff.rfl
  -- the loops of `*` and `+` find none of their operators at `>`
  have h4 : ReadsBack (.number Decimal.infinity, .number) ('>' :: ' ' :: tail) 1 True
      (parseLevel 0 4 c) := by
    refine readsBack_down (by simp [isBlank, blankPoints]) 2 4 (by omega) ?_ h6
    intro j hj hj'
    obtain rfl | rfl : j = 4 ∨ j = 5 := by omega
    all_goals decide
  -- the comparison loop reads `>` and the time up to the semicolon
  have h3 : ReadsBack (.binary .gt (.number Decimal.infinity) .time, .bool) ρ 2 True
      (parseLevel 0 3 c) := by
    refine readsBack_level (by decide) h4 (fun d hd hdo _ => ?_) fun _ => trivial
    have hjoin : Joins .gt .number .number .bool := ⟨rfl, rfl, rfl⟩
    have hgt : d.rest.dropWhile isBlank = BinaryOp.gt.symbol.toList ++ ' ' :: tail := by
      rw [hd]
      exact dropWhile_isBlank_cons (show isBlank '>' = false by decide)
    refine restLevel_consume hgt hjoin rfl hsemi ?_
    intro s2 hs2 hs2o
    have htime := readsBackAt_time 0 s2 ρ (by rw [hs2]; rfl) ⟨';', _, rfl, Or.inr (Or.inr (Or.inr rfl))⟩
    rw [hs2o, hdo] at htime
    exact readsBack_parseLevel rfl hsemi le_rfl (by decide)
      (htime.congr rfl (iff_of_true ⟨by decide, by decide⟩ trivial))
  have hraw := parseRaw_of_readsBack (readsBack_parseLevel rfl hsemi (by decide) (Nat.zero_le 3) h3)
  unfold parse
  rcases hr : parseRaw ("1" ++ String.ofList (List.replicate n '0') ++ " > time") with err | e
  · rw [hr] at hraw
    exact absurd trivial hraw.1
  · rw [hr] at hraw
    rw [hraw.1]

/-- A literal of 311 digits overflows to infinity, which prints as `inf`; that text is no
literal, so the printed program does not compile again. -/
theorem parse_render_overflow :
    ∃ e : Expr, parse ("1" ++ String.ofList (List.replicate 310 '0') ++ " > time") = .ok e ∧
      e.render = "(inf > time)" ∧ parse e.render = .error ⟨1, "unknown identifier 'inf'"⟩ := by
  have hrender : (Expr.binary .gt (.number Decimal.infinity) .time).render = "(inf > time)" := by
    decide
  have hagain : parse "(inf > time)" = .error ⟨1, "unknown identifier 'inf'"⟩ := by cbv
  exact ⟨_, parse_one_zeros_gt_time le_rfl, hrender, by rw [hrender]; exact hagain⟩

end Strategy
end Backtest
