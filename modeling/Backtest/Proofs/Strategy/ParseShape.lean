import Mathlib
import Backtest.Proofs.Strategy.Levels
/-!
# Proofs.Strategy.ParseShape — where the parser stands and what trees it builds

The parser walks the characters of the program followed by the closing `; }` of its template.
Its cursor keeps the characters still to read and a byte offset. Every step moves the offset by
the UTF-8 length of the characters it passes. So every offset the parser stands at, and every
error position it reports, falls between two characters.

The parser also keeps two budgets. Each unary level counts one operand, and there are at most
512 operands. Each unary level also goes one nesting level down, and there are at most 64 levels.
A tree read with `k` operands has at most `2k - 1` nodes, because binary operators join operands
and parentheses add no node. A unary, accessor or leaf node always stands one level below its
parent's unary level, so no path from the root to a leaf holds more than 64 of them. Accessor
names and literal percentiles are checked as they are read: a literal name becomes the canonical
name of an indicator, and a literal percentile becomes a kept label.

* `Expr.size`, `Expr.nesting`, `Expr.height`, `Expr.NamesKnown` — the measures and the name
  invariant;
* `Cursor.Valid text c` — the cursor stands in `text` at the byte length of what it has read,
  within the operand budget; `Cursor.Moves` — a step forward that counts no operand;
* `Fits`, `Sound` — what a parsing function returns from a valid cursor, and
  `parsesSoundBelow` — that every parsing function returns it, by strong induction on the
  termination measure;
* `parse_shape` — every program compiles into a bounded tree or fails at a character boundary.
-/

namespace Backtest
namespace Strategy

/-! ## Measures of a tree -/

namespace Expr

/-- The number of nodes. -/
def size : Expr → Nat
  | unary _ e => e.size + 1
  | binary _ l r => l.size + r.size + 1
  | indicator n i t => n.size + i.size + t.size + 1
  | quantile n p i t => n.size + p.size + i.size + t.size + 1
  | _ => 1

/-- The number of nodes on the longest path from the root to a leaf: how deep a walk over the
tree recurses. -/
def height : Expr → Nat
  | unary _ e => e.height + 1
  | binary _ l r => max l.height r.height + 1
  | indicator n i t => max n.height (max i.height t.height) + 1
  | quantile n p i t => max (max n.height p.height) (max i.height t.height) + 1
  | _ => 1

/-- The most unary, accessor and leaf nodes on one path from the root to a leaf; binary nodes
do not count. -/
def nesting : Expr → Nat
  | unary _ e => e.nesting + 1
  | binary _ l r => max l.nesting r.nesting
  | indicator n i t => max n.nesting (max i.nesting t.nesting) + 1
  | quantile n p i t => max (max n.nesting p.nesting) (max i.nesting t.nesting) + 1
  | _ => 1

theorem height_le_size (e : Expr) : e.height ≤ e.size := by
  induction e with
  | unary _ e ih => simp only [height, size]; omega
  | binary _ l r ihl ihr => simp only [height, size]; omega
  | indicator n i t ihn ihi iht => simp only [height, size]; omega
  | quantile n p i t ihn ihp ihi iht => simp only [height, size]; omega
  | _ => simp [height, size]

/-- A literal in the name position of an accessor is the canonical name of an indicator. -/
def KnownName : Expr → Prop
  | text s => ∃ k : Indicator, s = k.name
  | _ => True

/-- A literal in the percentile position of an accessor is a kept label. -/
def KnownLabel : Expr → Prop
  | text s => s ∈ Quantile.labels
  | _ => True

/-- Every accessor of the tree has a known literal name, and a known literal percentile. -/
def NamesKnown : Expr → Prop
  | unary _ e => e.NamesKnown
  | binary _ l r => l.NamesKnown ∧ r.NamesKnown
  | indicator n i t => n.KnownName ∧ n.NamesKnown ∧ i.NamesKnown ∧ t.NamesKnown
  | quantile n p i t =>
    n.KnownName ∧ p.KnownLabel ∧ n.NamesKnown ∧ p.NamesKnown ∧ i.NamesKnown ∧ t.NamesKnown
  | _ => True

end Expr

/-! ## Byte offsets -/

theorem utf8Length_eq_sum (cs : List Char) : utf8Length cs = (cs.map Char.utf8Size).sum := by
  -- the fold adds the sizes to whatever it starts from
  have hfold : ∀ n, cs.foldl (fun n c => n + c.utf8Size) n = n + (cs.map Char.utf8Size).sum := by
    induction cs with
    | nil => simp
    | cons c rest ih =>
      intro n
      rw [List.foldl_cons, ih]
      simp only [List.map_cons, List.sum_cons]
      omega
  unfold utf8Length
  simpa using hfold 0

@[simp] theorem utf8Length_append (a b : List Char) :
    utf8Length (a ++ b) = utf8Length a + utf8Length b := by
  simp [utf8Length_eq_sum]

@[simp] theorem utf8Length_cons (c : Char) (cs : List Char) :
    utf8Length (c :: cs) = c.utf8Size + utf8Length cs := by
  simp [utf8Length_eq_sum]

/-- The UTF-8 length of a list of characters is the byte size of its text. -/
theorem utf8Length_eq_utf8ByteSize (cs : List Char) :
    utf8Length cs = (String.ofList cs).utf8ByteSize := by
  induction cs with
  | nil => rfl
  | cons c rest ih =>
    rw [utf8Length_cons, ih, ← List.singleton_append, String.ofList_append,
      String.utf8ByteSize_append, ← String.singleton_eq_ofList, String.utf8ByteSize_singleton]

/-- A byte offset between two characters of `text`: the UTF-8 length of one of its prefixes. -/
def Boundary (text : List Char) (n : Nat) : Prop :=
  ∃ pre, pre <+: text ∧ n = utf8Length pre

/-- A boundary of a program followed by more text is a boundary of the program, or lies past it;
held at the program's end it is a valid position of the program. -/
theorem Boundary.clamp {program : String} {tail : List Char} {n : Nat}
    (h : Boundary (program.toList ++ tail) n) :
    Nat.min n program.utf8ByteSize ≤ program.utf8ByteSize ∧
      (⟨Nat.min n program.utf8ByteSize⟩ : String.Pos.Raw).IsValid program := by
  obtain ⟨pre, hpre, rfl⟩ := h
  have hsize : program.utf8ByteSize = utf8Length program.toList := by
    rw [utf8Length_eq_utf8ByteSize, String.ofList_toList]
  refine ⟨Nat.min_le_right _ _, ?_⟩
  rw [String.Pos.Raw.isValid_iff_exists_take_toList]
  rcases List.prefix_or_prefix_of_prefix hpre (List.prefix_append program.toList tail) with
    hle | hge
  · -- the offset lies inside the program
    obtain ⟨rest, hrest⟩ := hle
    have hlen : utf8Length pre ≤ program.utf8ByteSize := by
      rw [hsize, ← hrest, utf8Length_append]
      omega
    refine ⟨pre.length, ?_⟩
    show Nat.min (utf8Length pre) program.utf8ByteSize = _
    simp only [Nat.min_def, if_pos hlen]
    rw [← utf8Length_eq_utf8ByteSize, ← hrest, List.take_left]
  · -- the offset lies in the closing text, and is held at the program's end
    obtain ⟨rest, hrest⟩ := hge
    have hlen : program.utf8ByteSize ≤ utf8Length pre := by
      rw [hsize, ← hrest, utf8Length_append]
      omega
    refine ⟨program.toList.length, ?_⟩
    show Nat.min (utf8Length pre) program.utf8ByteSize = _
    simp only [Nat.min_def]
    rw [List.take_length, ← utf8Length_eq_utf8ByteSize, ← hsize]
    split <;> omega

/-! ## Cursors -/

namespace Cursor

variable {text : List Char}

/-- The cursor stands in `text`: what it has still to read follows a prefix whose UTF-8 length
is its offset, and it has counted no more operands than allowed. -/
structure Valid (text : List Char) (c : Cursor) : Prop where
  read : ∃ pre, pre ++ c.rest = text ∧ c.pos = utf8Length pre
  operands : c.operands ≤ maxOperands

/-- `d` stands further in `text` than `c` and has counted the same operands. -/
structure Moves (text : List Char) (c d : Cursor) : Prop where
  valid : d.Valid text
  operands : d.operands = c.operands

theorem Valid.boundary {c : Cursor} (h : c.Valid text) : Boundary text c.pos := by
  obtain ⟨pre, hpre, hpos⟩ := h.read
  exact ⟨pre, ⟨c.rest, hpre⟩, hpos⟩

theorem Moves.trans {c d e : Cursor} (h₁ : Moves text c d) (h₂ : Moves text d e) :
    Moves text c e :=
  ⟨h₂.valid, h₂.operands.trans h₁.operands⟩

/-- Passing text the cursor stands on moves it by that text's UTF-8 length. -/
theorem Valid.past {c : Cursor} (h : c.Valid text) {taken tail : List Char}
    (hsplit : c.rest = taken ++ tail) : Moves text c (c.past taken tail) := by
  obtain ⟨pre, hpre, hpos⟩ := h.read
  refine ⟨⟨⟨pre ++ taken, ?_, ?_⟩, h.operands⟩, rfl⟩
  · simp [Cursor.past, ← hpre, hsplit]
  · simp [Cursor.past, hpos]

theorem Valid.skip {c : Cursor} (h : c.Valid text) : Moves text c c.skip.1 :=
  h.past (List.takeWhile_append_dropWhile ..).symm

/-- The cursor past the blanks, as a match on `c.skip` names it. -/
theorem Valid.skip_eq {c s : Cursor} {hs : s.rest.length ≤ c.rest.length} (h : c.Valid text)
    (hsk : c.skip = ⟨s, hs⟩) : Moves text c s := by
  have := h.skip
  rwa [hsk] at this

theorem Valid.eat {c : Cursor} (h : c.Valid text) {p : List Char} {d : c.Ahead}
    (he : c.eat p = some d) : Moves text c d.1 := by
  unfold Cursor.eat at he
  split at he
  · rename_i hp
    cases he
    obtain ⟨t, ht⟩ := List.isPrefixOf_iff_prefix.mp hp.1
    apply h.past
    rw [← ht]
    simp
  · cases he

theorem Valid.eatKeyword {c : Cursor} (h : c.Valid text) {kw : String} {d : c.Ahead}
    (he : c.eatKeyword kw = some d) : Moves text c d.1 := by
  unfold Cursor.eatKeyword at he
  split at he
  · exact h.eat he
  · cases he

theorem Valid.eatOperator {c : Cursor} (h : c.Valid text) {op : String} {longer : List String}
    {d : c.Ahead} (he : c.eatOperator op longer = some d) : Moves text c d.1 := by
  unfold Cursor.eatOperator at he
  split at he
  · cases he
  · exact h.eat he

theorem Valid.expect_ok {c : Cursor} (h : c.Valid text) {ch : Char} {d : c.Ahead}
    (he : c.expect ch = .ok d) : Moves text c d.1 := by
  unfold expect at he
  rcases hsk : c.skip with ⟨s, hs⟩
  rw [hsk] at he
  dsimp only at he
  have hmove : Moves text c s := h.skip_eq hsk
  split at he
  · rename_i d' hd' heat
    cases he
    exact hmove.trans (hmove.valid.eat heat)
  · cases he

theorem Valid.expect_error {c : Cursor} (h : c.Valid text) {ch : Char} {err : ParseError}
    (he : c.expect ch = .error err) : Boundary text err.position := by
  unfold expect at he
  rcases hsk : c.skip with ⟨s, hs⟩
  rw [hsk] at he
  dsimp only at he
  have hs : s.Valid text := by
    have := h.skip.valid
    rwa [hsk] at this
  split at he
  · cases he
  · cases he
    exact hs.boundary

end Cursor

open Cursor

section Scanner

variable {text : List Char}

theorem eatBinary_moves {c : Cursor} (h : c.Valid text) {ops : List (BinaryOp × String × List String)}
    {op : BinaryOp} {d : c.Ahead} (he : eatBinary c ops = some (op, d)) : Moves text c d.1 := by
  induction ops with
  | nil => cases he
  | cons o more ih =>
    unfold eatBinary at he
    split at he
    · rename_i d' hd'
      cases he
      exact h.eatOperator hd'
    · exact ih he

theorem eatLogical_moves {c : Cursor} (h : c.Valid text) {op op' : BinaryOp} {sym kw : String}
    {d : c.Ahead} (he : eatLogical c op sym kw = some (op', d)) : Moves text c d.1 := by
  unfold eatLogical at he
  split at he
  · rename_i d' hd'
    cases he
    exact h.eatOperator hd'
  · obtain ⟨d', hd', heq⟩ := Option.map_eq_some_iff.mp he
    cases heq
    exact h.eatKeyword hd'

theorem eatUnary_moves {c : Cursor} (h : c.Valid text) {op : UnaryOp} {d : c.Ahead}
    (he : eatUnary c = some (op, d)) : Moves text c d.1 := by
  unfold eatUnary at he
  split at he
  · rename_i d' hd'
    cases he
    exact h.eatOperator hd'
  · split at he
    · rename_i d' hd'
      cases he
      exact h.eatKeyword hd'
    · obtain ⟨d', hd', heq⟩ := Option.map_eq_some_iff.mp he
      cases heq
      exact h.eatOperator hd'

end Scanner

/-! ## What a parsing function returns -/

section Outcomes

variable {text : List Char}

/-- A tree `e` read at nesting level `depth`, from a cursor whose operand count was `a`, ending at
the valid cursor `d`: it holds no more than twice the operands read less one nodes, its deepest
path stays within the levels left, and its accessor names are known. -/
structure Fits (text : List Char) (a depth : Nat) (e : Expr) (d : Cursor) : Prop where
  valid : d.Valid text
  counted : a ≤ d.operands
  size : e.size + 1 ≤ 2 * (d.operands - a)
  nesting : e.nesting + depth ≤ maxNesting
  names : e.NamesKnown

/-- The outcome of a parsing function: a failure at a character boundary, or a tree that fits.
It reads only the cursor of a result, not the proof that came with it. -/
def Sound (text : List Char) (a depth : Nat) {P : Cursor → Prop} :
    Except ParseError (Typed × Subtype P) → Prop
  | .error err => Boundary text err.position
  | .ok ((e, _), d) => Fits text a depth e d.1

@[simp] theorem sound_widen {a depth : Nat} {c d : Cursor} (h : d.rest.length ≤ c.rest.length)
    (o : Outcome d Typed) : Sound text a depth (o.widen h) ↔ Sound text a depth o := by
  rcases o with e | ⟨⟨x, τ⟩, ⟨d', hd'⟩⟩ <;> rfl

theorem Fits.moves {a depth : Nat} {e : Expr} {c d : Cursor} (h : Fits text a depth e c)
    (hm : Moves text c d) : Fits text a depth e d := by
  obtain ⟨_, hcount, hsize, hnest, hnames⟩ := h
  exact ⟨hm.valid, hm.operands ▸ hcount, hm.operands ▸ hsize, hnest, hnames⟩

/-- Joining two operands that fit, the right one read after the left, gives a tree that fits. -/
theorem Fits.binary {a depth : Nat} {l r : Expr} {c s e : Cursor} (hl : Fits text a depth l c)
    (hs : Moves text c s) (hr : Fits text s.operands depth r e) (op : BinaryOp) :
    Fits text a depth (.binary op l r) e := by
  obtain ⟨_, hca, hls, hln, hlk⟩ := hl
  obtain ⟨hv, hce, hrs, hrn, hrk⟩ := hr
  have hops := hs.operands
  refine ⟨hv, by omega, ?_, ?_, ⟨hlk, hrk⟩⟩
  · simp only [Expr.size]
    omega
  · simp only [Expr.nesting]
    omega

/-- A tree read one level further down, after the operand the level above counted, fits that
level. -/
theorem Fits.up {a depth : Nat} {e : Expr} {c s d : Cursor} (hc : c.operands = a + 1)
    (hs : Moves text c s) (h : Fits text s.operands (depth + 1) e d) : Fits text a depth e d := by
  obtain ⟨hv, hcount, hsize, hnest, hnames⟩ := h
  have hops := hs.operands
  exact ⟨hv, by omega, by omega, by omega, hnames⟩

/-- A unary operator over a tree read one level further down. -/
theorem Fits.unary {a depth : Nat} {e : Expr} {c s d : Cursor} (hc : c.operands = a + 1)
    (hs : Moves text c s) (h : Fits text s.operands (depth + 1) e d) (op : UnaryOp) :
    Fits text a depth (.unary op e) d := by
  obtain ⟨hv, hcount, hsize, hnest, hnames⟩ := h
  have hops := hs.operands
  refine ⟨hv, by omega, ?_, ?_, hnames⟩
  · simp only [Expr.size]
    omega
  · simp only [Expr.nesting]
    omega

/-- A literal or a variable read between `c` and `d`: one node for the operand counted. -/
theorem Fits.leaf {a depth : Nat} {e : Expr} {c d : Cursor} (hc : c.operands = a + 1)
    (hdepth : depth < maxNesting) (hm : Moves text c d) (hsize : e.size = 1)
    (hnest : e.nesting = 1) (hnames : e.NamesKnown) : Fits text a depth e d := by
  have hops := hm.operands
  exact ⟨hm.valid, by omega, by omega, by omega, hnames⟩

end Outcomes

/-! ## Literals and name checks -/

section Literals

variable {text : List Char}

/-- A literal's outcome: a failure at a boundary, or one leaf node read up to a cursor ahead. -/
def LeafRead (text : List Char) (c : Cursor) : Outcome c Typed → Prop
  | .error err => Boundary text err.position
  | .ok ((e, _), d) => Moves text c d.1 ∧ e.size = 1 ∧ e.nesting = 1 ∧ e.NamesKnown

theorem LeafRead.sound {a depth : Nat} {c : Cursor} {o : Outcome c Typed} (h : LeafRead text c o)
    (hc : c.operands = a + 1) (hdepth : depth < maxNesting) : Sound text a depth o := by
  rcases o with err | ⟨⟨e, τ⟩, d⟩
  · exact h
  · obtain ⟨hm, hsize, hnest, hnames⟩ := h
    exact Fits.leaf hc hdepth hm hsize hnest hnames

theorem parseNumber_leafRead {c : Cursor} (h : c.Valid text) : LeafRead text c (parseNumber c) := by
  unfold parseNumber
  dsimp only
  split
  · split
    · rename_i d hd heat
      split
      · exact ⟨h.eat heat, rfl, rfl, trivial⟩
      · exact h.boundary
    · exact h.boundary
  · exact h.boundary

/-- A string literal ends after its closing quote: the two quotes take a byte each. -/
theorem parseString_leafRead {c : Cursor} (h : c.Valid text) {tl : List Char}
    (hq : c.rest = '"' :: tl) : LeafRead text c (parseString c) := by
  unfold parseString
  split
  · rename_i x body hrest
    obtain ⟨rfl, rfl⟩ := List.cons.inj (hq.symm.trans hrest)
    dsimp only
    split
    · rename_i q after hdrop
      split
      · -- the scan stops at a quote
        have hclose : q = '"' := by
          have := List.head?_dropWhile_not (fun x => x != '"') tl
          rw [hdrop] at this
          simpa using this
        subst hclose
        have hsplit : c.rest = ('"' :: tl.takeWhile (· != '"') ++ ['"']) ++ after := by
          have htl : tl.takeWhile (· != '"') ++ tl.dropWhile (· != '"') = tl :=
            List.takeWhile_append_dropWhile
          rw [hdrop] at htl
          conv_lhs => rw [hq, ← htl]
          simp
        have hpast : c.past ('"' :: tl.takeWhile (· != '"') ++ ['"']) after =
            { c with rest := after, pos := c.pos + 2 + utf8Length (tl.takeWhile (· != '"')) } := by
          simp only [Cursor.past, List.cons_append, utf8Length_cons, utf8Length_append]
          congr 1
          have hquote : '"'.utf8Size = 1 := rfl
          simp only [utf8Length_eq_sum, List.map_nil, List.sum_nil, hquote]
          omega
        have hm := h.past hsplit
        rw [hpast] at hm
        exact ⟨hm, rfl, rfl, trivial⟩
      · exact h.boundary
    · exact h.boundary
  · exact h.boundary

end Literals

/-! ## Name checks and accessors -/

section Accessors

variable {text : List Char}

/-- A failed operand check reports the operator's position. -/
theorem require_error {pos : Nat} {op : BinaryOp} {τ σ : ValueType} {err : ParseError}
    (h : require pos op τ σ = .error err) : err.position = pos := by
  unfold require at h
  split at h
  · cases h
  · cases h
    rfl

/-- A checked name has the shape of what it replaces and, as a literal, is a canonical name. -/
theorem checkIndicatorName_ok {pos : Nat} {n n' : Expr} (h : checkIndicatorName pos n = .ok n') :
    n'.size = n.size ∧ n'.nesting = n.nesting ∧ (n.NamesKnown → n'.NamesKnown) ∧
      n'.KnownName := by
  unfold checkIndicatorName at h
  split at h
  · split at h
    · rename_i k _
      cases h
      exact ⟨rfl, rfl, fun _ => trivial, k, rfl⟩
    · cases h
  · rename_i hnot
    cases h
    refine ⟨rfl, rfl, id, ?_⟩
    -- anything but a text literal is kept, and needs no check
    cases n with
    | text s => exact absurd rfl (hnot s)
    | _ => trivial

theorem checkIndicatorName_error {pos : Nat} {n : Expr} {err : ParseError}
    (h : checkIndicatorName pos n = .error err) : err.position = pos := by
  unfold checkIndicatorName at h
  split at h
  · split at h
    · cases h
    · cases h
      rfl
  · cases h

/-- A checked percentile has the shape of what it replaces and, as a literal, is a kept label. -/
theorem checkPercentile_ok {pos : Nat} {p p' : Expr} (h : checkPercentile pos p = .ok p') :
    p'.size = p.size ∧ p'.nesting = p.nesting ∧ (p.NamesKnown → p'.NamesKnown) ∧
      p'.KnownLabel := by
  unfold checkPercentile at h
  dsimp only at h
  split at h
  · -- no literal: the percentile is kept as it is
    rename_i hnone
    cases h
    refine ⟨rfl, rfl, id, ?_⟩
    cases p with
    | text s => simp at hnone
    | _ => trivial
  · -- a literal becomes the text of its label, which must be kept
    rename_i l hl
    split at h
    · rename_i hmem
      cases h
      have hlit : p.size = 1 ∧ p.nesting = 1 := by
        cases p <;> simp_all [Expr.size, Expr.nesting]
      exact ⟨hlit.1.symm, hlit.2.symm, fun _ => trivial, (by simpa using hmem : l ∈ Quantile.labels)⟩
    · cases h

theorem checkPercentile_error {pos : Nat} {p : Expr} {err : ParseError}
    (h : checkPercentile pos p = .error err) : err.position = pos := by
  unfold checkPercentile at h
  dsimp only at h
  split at h
  · cases h
  · split at h
    · cases h
    · cases h
      rfl

/-- `Indicator(name, instrument, time)`: three arguments read one level down, the name
checked, one node over them. -/
theorem Fits.indicator {a depth : Nat} {c c1 c2 c3 c4 c5 c6 c7 : Cursor} {n n' i t : Expr}
    (hc : c.operands = a + 1) (h1 : Moves text c c1)
    (hn : Fits text c1.operands (depth + 1) n c2)
    (hn' : n'.size = n.size ∧ n'.nesting = n.nesting ∧ (n.NamesKnown → n'.NamesKnown) ∧
      n'.KnownName)
    (h3 : Moves text c2 c3) (hi : Fits text c3.operands (depth + 1) i c4)
    (h5 : Moves text c4 c5) (ht : Fits text c5.operands (depth + 1) t c6)
    (h7 : Moves text c6 c7) : Fits text a depth (.indicator n' i t) c7 := by
  obtain ⟨hsize', hnest', hnames', hknown⟩ := hn'
  obtain ⟨-, hn1, hn2, hn3, hn4⟩ := hn
  obtain ⟨-, hi1, hi2, hi3, hi4⟩ := hi
  obtain ⟨-, ht1, ht2, ht3, ht4⟩ := ht
  have := h1.operands
  have := h3.operands
  have := h5.operands
  have := h7.operands
  refine ⟨h7.valid, by omega, ?_, ?_, ⟨hknown, hnames' hn4, hi4, ht4⟩⟩
  · simp only [Expr.size]
    omega
  · simp only [Expr.nesting]
    omega

/-- `IndQuantile(name, percentile, instrument, time)`: four arguments read one level down, the
name and the percentile checked, one node over them. -/
theorem Fits.quantile {a depth : Nat} {c c1 c2 c3 c4 c5 c6 c7 c8 c9 : Cursor}
    {n n' p p' i t : Expr} (hc : c.operands = a + 1) (h1 : Moves text c c1)
    (hn : Fits text c1.operands (depth + 1) n c2)
    (hn' : n'.size = n.size ∧ n'.nesting = n.nesting ∧ (n.NamesKnown → n'.NamesKnown) ∧
      n'.KnownName)
    (h3 : Moves text c2 c3) (hp : Fits text c3.operands (depth + 1) p c4)
    (hp' : p'.size = p.size ∧ p'.nesting = p.nesting ∧ (p.NamesKnown → p'.NamesKnown) ∧
      p'.KnownLabel)
    (h5 : Moves text c4 c5) (hi : Fits text c5.operands (depth + 1) i c6)
    (h7 : Moves text c6 c7) (ht : Fits text c7.operands (depth + 1) t c8)
    (h9 : Moves text c8 c9) : Fits text a depth (.quantile n' p' i t) c9 := by
  obtain ⟨hnsize, hnnest, hnnames, hnknown⟩ := hn'
  obtain ⟨hpsize, hpnest, hpnames, hpknown⟩ := hp'
  obtain ⟨-, hn1, hn2, hn3, hn4⟩ := hn
  obtain ⟨-, hp1, hp2, hp3, hp4⟩ := hp
  obtain ⟨-, hi1, hi2, hi3, hi4⟩ := hi
  obtain ⟨-, ht1, ht2, ht3, ht4⟩ := ht
  have := h1.operands
  have := h3.operands
  have := h5.operands
  have := h7.operands
  have := h9.operands
  refine ⟨h9.valid, by omega, ?_, ?_,
    ⟨hnknown, hpknown, hnnames hn4, hpnames hp4, hi4, ht4⟩⟩
  · simp only [Expr.size]
    omega
  · simp only [Expr.nesting]
    omega

end Accessors

/-! ## The induction

`ParsesSoundBelow text n` says that every parsing function returns a sound outcome from every
valid cursor where its termination measure is below `n`. The binary levels and the unary level
start an operand count of their own; the operand loops go on from a left operand that fits; the
functions below the unary level are entered one level down, after their operand was counted. -/

/-- Every parsing function is sound where its measure is below `n`. -/
structure ParsesSoundBelow (text : List Char) (n : Nat) : Prop where
  logicalOr : ∀ depth (c : Cursor), c.rest.length * 32 + 15 < n → c.Valid text →
    Sound text c.operands depth (parseOr depth c)
  orLoop : ∀ depth (c : Cursor) (left : Typed) a, c.rest.length * 32 + 14 < n →
    Fits text a depth left.1 c → Sound text a depth (orRest depth c left)
  logicalAnd : ∀ depth (c : Cursor), c.rest.length * 32 + 13 < n → c.Valid text →
    Sound text c.operands depth (parseAnd depth c)
  andLoop : ∀ depth (c : Cursor) (left : Typed) a, c.rest.length * 32 + 12 < n →
    Fits text a depth left.1 c → Sound text a depth (andRest depth c left)
  equality : ∀ depth (c : Cursor), c.rest.length * 32 + 11 < n → c.Valid text →
    Sound text c.operands depth (parseEquality depth c)
  equalityLoop : ∀ depth (c : Cursor) (left : Typed) a, c.rest.length * 32 + 10 < n →
    Fits text a depth left.1 c → Sound text a depth (equalityRest depth c left)
  comparison : ∀ depth (c : Cursor), c.rest.length * 32 + 9 < n → c.Valid text →
    Sound text c.operands depth (parseComparison depth c)
  comparisonLoop : ∀ depth (c : Cursor) (left : Typed) a, c.rest.length * 32 + 8 < n →
    Fits text a depth left.1 c → Sound text a depth (comparisonRest depth c left)
  additive : ∀ depth (c : Cursor), c.rest.length * 32 + 7 < n → c.Valid text →
    Sound text c.operands depth (parseAdditive depth c)
  additiveLoop : ∀ depth (c : Cursor) (left : Typed) a, c.rest.length * 32 + 6 < n →
    Fits text a depth left.1 c → Sound text a depth (additiveRest depth c left)
  multiplicative : ∀ depth (c : Cursor), c.rest.length * 32 + 5 < n → c.Valid text →
    Sound text c.operands depth (parseMultiplicative depth c)
  multiplicativeLoop : ∀ depth (c : Cursor) (left : Typed) a, c.rest.length * 32 + 4 < n →
    Fits text a depth left.1 c → Sound text a depth (multiplicativeRest depth c left)
  unary : ∀ depth (c : Cursor), c.rest.length * 32 + 3 < n → c.Valid text →
    Sound text c.operands depth (parseUnary depth c)
  unaryOperand : ∀ depth at_ (c : Cursor) a, c.rest.length * 32 + 2 < n → c.Valid text →
    Boundary text at_ → c.operands = a + 1 → depth < maxNesting →
    Sound text a depth (parseUnaryOperand (depth + 1) at_ c)
  primary : ∀ depth (c : Cursor) a, c.rest.length * 32 + 1 < n → c.Valid text →
    c.operands = a + 1 → depth < maxNesting → Sound text a depth (parsePrimary (depth + 1) c)
  word : ∀ depth (c s : Cursor) (hs : s.rest.length ≤ c.rest.length) a, c.rest.length * 32 < n →
    s.Valid text → s.operands = a + 1 → depth < maxNesting →
    Sound text a depth (parseWord (depth + 1) c s hs)
  argument : ∀ depth (c : Cursor) (types : List ValueType) (what : String),
    c.rest.length * 32 + 16 < n → c.Valid text →
    Sound text c.operands depth (parseArgument depth c types what)
  indicatorCall : ∀ depth (c : Cursor) a, c.rest.length * 32 + 17 < n → c.Valid text →
    c.operands = a + 1 → Sound text a depth (parseIndicatorCall (depth + 1) c)
  quantileCall : ∀ depth (c : Cursor) a, c.rest.length * 32 + 18 < n → c.Valid text →
    c.operands = a + 1 → Sound text a depth (parseQuantileCall (depth + 1) c)

section Steps

variable {text : List Char} {depth : Nat}

/-- A binary level reads an operand from its own count on and hands it to its loop. -/
theorem level_sound {a : Nat} {c : Cursor} (operand : Outcome c Typed)
    (loop : (d : Cursor) → Typed → Outcome d Typed) (hop : Sound text a depth operand)
    (hloop : ∀ (d : Cursor) (left : Typed), d.rest.length ≤ c.rest.length →
      Fits text a depth left.1 d → Sound text a depth (loop d left)) :
    Sound text a depth (levelStep operand loop) := by
  rcases operand with e | ⟨left, d, hd⟩
  · exact hop
  · rw [levelStep_ok, sound_widen]
    exact hloop d left hd hop

/-- An operand loop: after its operator it reads the right operand, whose count starts where
the left one's ended, checks both operands, and goes on with the joined tree. -/
theorem loop_sound {a : Nat} {c : Cursor} {left : Typed}
    (eat : (s : Cursor) → Option (BinaryOp × s.Ahead)) (operand : (s : Cursor) → Outcome s Typed)
    (loop : (d : Cursor) → Typed → Outcome d Typed) (σ τ : ValueType)
    (hl : Fits text a depth left.1 c)
    (heat : ∀ (s : Cursor) op (d : s.Ahead), s.Valid text → eat s = some (op, d) →
      Moves text s d.1)
    (hop : ∀ s : Cursor, s.rest.length < c.rest.length → s.Valid text →
      Sound text s.operands depth (operand s))
    (hloop : ∀ (e : Cursor) (l : Typed), e.rest.length < c.rest.length →
      Fits text a depth l.1 e → Sound text a depth (loop e l)) :
    Sound text a depth (operandStep eat operand loop σ τ c left) := by
  rw [operandStep_eq_match]
  rcases hsk : c.skip with ⟨s, hs⟩
  dsimp only
  have hms : Moves text c s := hl.valid.skip_eq hsk
  rcases heats : eat s with _ | ⟨op, s2, h2⟩
  · exact hl.moves hms
  · dsimp only
    have hm2 : Moves text s s2 := heat s op ⟨s2, h2⟩ hms.valid heats
    have hr := hop s2 (by omega) hm2.valid
    rcases hpar : operand s2 with err | ⟨⟨r, rt⟩, e, he⟩
    · rw [hpar] at hr
      exact hr
    · rw [hpar] at hr
      dsimp only
      -- a failed check is reported where the operator stands
      rcases hleft : require s.pos op σ left.2 with err | u
      · show Boundary text err.position
        rw [require_error hleft]
        exact hms.valid.boundary
      · cases u
        rcases hright : require s.pos op σ rt with err | u
        · show Boundary text err.position
          rw [require_error hright]
          exact hms.valid.boundary
        · cases u
          rw [sound_widen]
          exact hloop e _ (by omega) (hl.binary (hms.trans hm2) hr op)

theorem parseOr_sound {c : Cursor} (ih : ParsesSoundBelow text (c.rest.length * 32 + 15))
    (hc : c.Valid text) : Sound text c.operands depth (parseOr depth c) := by
  rw [parseOr_eq_levelStep]
  exact level_sound _ (orRest depth) (ih.logicalAnd depth c (by omega) hc)
    fun d left _ hl => ih.orLoop depth d left _ (by omega) hl

theorem orRest_sound {c : Cursor} (ih : ParsesSoundBelow text (c.rest.length * 32 + 14))
    {left : Typed} {a : Nat} (hl : Fits text a depth left.1 c) :
    Sound text a depth (orRest depth c left) := by
  rw [orRest_eq_operandStep]
  exact loop_sound (fun s => eatLogical s .or "||" "or") (parseAnd depth) (orRest depth)
    .bool .bool hl (fun _ _ _ hs he => eatLogical_moves hs he)
    (fun s _ hs => ih.logicalAnd depth s (by omega) hs)
    (fun e l _ hl => ih.orLoop depth e l a (by omega) hl)

theorem parseAnd_sound {c : Cursor} (ih : ParsesSoundBelow text (c.rest.length * 32 + 13))
    (hc : c.Valid text) : Sound text c.operands depth (parseAnd depth c) := by
  rw [parseAnd_eq_levelStep]
  exact level_sound _ (andRest depth) (ih.equality depth c (by omega) hc)
    fun d left _ hl => ih.andLoop depth d left _ (by omega) hl

theorem andRest_sound {c : Cursor} (ih : ParsesSoundBelow text (c.rest.length * 32 + 12))
    {left : Typed} {a : Nat} (hl : Fits text a depth left.1 c) :
    Sound text a depth (andRest depth c left) := by
  rw [andRest_eq_operandStep]
  exact loop_sound (fun s => eatLogical s .and "&&" "and") (parseEquality depth) (andRest depth)
    .bool .bool hl (fun _ _ _ hs he => eatLogical_moves hs he)
    (fun s _ hs => ih.equality depth s (by omega) hs)
    (fun e l _ hl => ih.andLoop depth e l a (by omega) hl)

theorem parseEquality_sound {c : Cursor} (ih : ParsesSoundBelow text (c.rest.length * 32 + 11))
    (hc : c.Valid text) : Sound text c.operands depth (parseEquality depth c) := by
  rw [parseEquality_eq_levelStep]
  exact level_sound _ (equalityRest depth) (ih.comparison depth c (by omega) hc)
    fun d left _ hl => ih.equalityLoop depth d left _ (by omega) hl

/-- The `==` and `!=` loop checks only that its operand types agree, and fails where the
operator stands. -/
theorem equalityRest_sound {c : Cursor} (ih : ParsesSoundBelow text (c.rest.length * 32 + 10))
    {left : Typed} {a : Nat} (hl : Fits text a depth left.1 c) :
    Sound text a depth (equalityRest depth c left) := by
  rw [equalityRest]
  split
  rename_i s hs hsk
  have hms : Moves text c s := hl.valid.skip_eq hsk
  split
  · exact hl.moves hms
  · rename_i op s2 h2 heat
    have hm2 : Moves text s s2 := eatBinary_moves hms.valid heat
    have hr := ih.comparison depth s2 (by omega) hm2.valid
    split
    · rename_i err hpar
      rw [hpar] at hr
      exact hr
    · rename_i r rt e he hpar
      rw [hpar] at hr
      split
      · rw [sound_widen]
        exact ih.equalityLoop depth e _ a (by omega) (hl.binary (hms.trans hm2) hr op)
      · exact hms.valid.boundary

theorem parseComparison_sound {c : Cursor}
    (ih : ParsesSoundBelow text (c.rest.length * 32 + 9)) (hc : c.Valid text) :
    Sound text c.operands depth (parseComparison depth c) := by
  rw [parseComparison_eq_levelStep]
  exact level_sound _ (comparisonRest depth) (ih.additive depth c (by omega) hc)
    fun d left _ hl => ih.comparisonLoop depth d left _ (by omega) hl

theorem comparisonRest_sound {c : Cursor} (ih : ParsesSoundBelow text (c.rest.length * 32 + 8))
    {left : Typed} {a : Nat} (hl : Fits text a depth left.1 c) :
    Sound text a depth (comparisonRest depth c left) := by
  rw [comparisonRest_eq_operandStep]
  exact loop_sound
    (fun s => eatBinary s [(.le, "<=", []), (.ge, ">=", []), (.lt, "<", []), (.gt, ">", [])])
    (parseAdditive depth) (comparisonRest depth) .number .bool hl
    (fun _ _ _ hs he => eatBinary_moves hs he)
    (fun s _ hs => ih.additive depth s (by omega) hs)
    (fun e l _ hl => ih.comparisonLoop depth e l a (by omega) hl)

theorem parseAdditive_sound {c : Cursor} (ih : ParsesSoundBelow text (c.rest.length * 32 + 7))
    (hc : c.Valid text) : Sound text c.operands depth (parseAdditive depth c) := by
  rw [parseAdditive_eq_levelStep]
  exact level_sound _ (additiveRest depth) (ih.multiplicative depth c (by omega) hc)
    fun d left _ hl => ih.additiveLoop depth d left _ (by omega) hl

theorem additiveRest_sound {c : Cursor} (ih : ParsesSoundBelow text (c.rest.length * 32 + 6))
    {left : Typed} {a : Nat} (hl : Fits text a depth left.1 c) :
    Sound text a depth (additiveRest depth c left) := by
  rw [additiveRest_eq_operandStep]
  exact loop_sound (fun s => eatBinary s [(.add, "+", []), (.sub, "-", [])])
    (parseMultiplicative depth) (additiveRest depth) .number left.2 hl
    (fun _ _ _ hs he => eatBinary_moves hs he)
    (fun s _ hs => ih.multiplicative depth s (by omega) hs)
    (fun e l _ hl => ih.additiveLoop depth e l a (by omega) hl)

theorem parseMultiplicative_sound {c : Cursor}
    (ih : ParsesSoundBelow text (c.rest.length * 32 + 5)) (hc : c.Valid text) :
    Sound text c.operands depth (parseMultiplicative depth c) := by
  rw [parseMultiplicative_eq_levelStep]
  exact level_sound _ (multiplicativeRest depth) (ih.unary depth c (by omega) hc)
    fun d left _ hl => ih.multiplicativeLoop depth d left _ (by omega) hl

theorem multiplicativeRest_sound {c : Cursor}
    (ih : ParsesSoundBelow text (c.rest.length * 32 + 4)) {left : Typed} {a : Nat}
    (hl : Fits text a depth left.1 c) : Sound text a depth (multiplicativeRest depth c left) := by
  rw [multiplicativeRest_eq_operandStep]
  exact loop_sound (fun s => eatBinary s [(.mul, "*", []), (.div, "/", [])])
    (parseUnary depth) (multiplicativeRest depth) .number left.2 hl
    (fun _ _ _ hs he => eatBinary_moves hs he)
    (fun s _ hs => ih.unary depth s (by omega) hs)
    (fun e l _ hl => ih.multiplicativeLoop depth e l a (by omega) hl)

/-- The unary level fails at the nesting or operand limit; otherwise it counts the operand and
reads it one level down. -/
theorem parseUnary_sound {c : Cursor} (ih : ParsesSoundBelow text (c.rest.length * 32 + 3))
    (hc : c.Valid text) : Sound text c.operands depth (parseUnary depth c) := by
  rw [parseUnary]
  split
  rename_i s hs hsk
  have hms : Moves text c s := hc.skip_eq hsk
  split
  · exact hms.valid.boundary
  · split
    · exact hms.valid.boundary
    · rename_i hdepth hops
      rw [sound_widen]
      have hv : Cursor.Valid text ⟨s.rest, s.pos, s.operands + 1⟩ :=
        ⟨hms.valid.read, by simp only; omega⟩
      exact ih.unaryOperand depth s.pos _ c.operands (by simp only; omega) hv hms.valid.boundary
        (by simp only [hms.operands]) (by omega)

/-- `!` and `-` put one node over an operand read one level further down. -/
theorem parseUnaryOperand_sound {at_ a : Nat} {c : Cursor}
    (ih : ParsesSoundBelow text (c.rest.length * 32 + 2)) (hc : c.Valid text)
    (hat : Boundary text at_) (hca : c.operands = a + 1) (hdepth : depth < maxNesting) :
    Sound text a depth (parseUnaryOperand (depth + 1) at_ c) := by
  rw [parseUnaryOperand]
  split
  rename_i s hs hsk
  have hms : Moves text c s := hc.skip_eq hsk
  split
  · rw [sound_widen]
    exact ih.primary depth s a (by omega) hms.valid (hms.operands.trans hca) hdepth
  · rename_i op s2 h2 heat
    have hm2 : Moves text s s2 := eatUnary_moves hms.valid heat
    have hx := ih.unary (depth + 1) s2 (by omega) hm2.valid
    split
    · rename_i err hpar
      rw [hpar] at hx
      exact hx
    · rename_i x ty d hd hpar
      rw [hpar] at hx
      dsimp only
      -- the operand must have the type its operator expects
      split
      · split
        · exact Fits.unary hca (hms.trans hm2) hx op
        · exact hat
      · split
        · exact Fits.unary hca (hms.trans hm2) hx op
        · exact hat

/-- A parenthesised expression is read one level down; literals and words are leaves or
accessor calls. -/
theorem parsePrimary_sound {a : Nat} {c : Cursor}
    (ih : ParsesSoundBelow text (c.rest.length * 32 + 1)) (hc : c.Valid text)
    (hca : c.operands = a + 1) (hdepth : depth < maxNesting) :
    Sound text a depth (parsePrimary (depth + 1) c) := by
  rw [parsePrimary]
  split
  rename_i s hs hsk
  have hms : Moves text c s := hc.skip_eq hsk
  have hsa : s.operands = a + 1 := hms.operands.trans hca
  split
  · rename_i s2 h2 heat
    have hm2 : Moves text s s2 := hms.valid.eat heat
    have hin := ih.logicalOr (depth + 1) s2 (by omega) hm2.valid
    split
    · rename_i err hpar
      rw [hpar] at hin
      exact hin
    · rename_i inner d hd hpar
      rw [hpar] at hin
      split
      · rename_i err hexp
        exact hin.valid.expect_error hexp
      · rename_i e he hexp
        exact (Fits.up hsa hm2 hin).moves (hin.valid.expect_ok hexp)
  · split
    · rename_i tl hq
      rw [sound_widen]
      exact (parseString_leafRead hms.valid hq).sound hsa hdepth
    · split
      · rw [sound_widen]
        exact (parseNumber_leafRead hms.valid).sound hsa hdepth
      · exact ih.word depth c s hs a (by omega) hms.valid hsa hdepth
    · exact ih.word depth c s hs a (by omega) hms.valid hsa hdepth

/-- Keywords and variables are leaves; the accessor words go on to their calls. -/
theorem parseWord_sound {a : Nat} {c s : Cursor} {hs : s.rest.length ≤ c.rest.length}
    (ih : ParsesSoundBelow text (c.rest.length * 32)) (hsv : s.Valid text)
    (hsa : s.operands = a + 1) (hdepth : depth < maxNesting) :
    Sound text a depth (parseWord (depth + 1) c s hs) := by
  rw [parseWord]
  dsimp only
  split
  · exact hsv.boundary
  · rename_i s2 h2 heat
    have hm : Moves text s s2 := hsv.eat heat
    split
    · exact Fits.leaf hsa hdepth hm rfl rfl trivial
    · exact Fits.leaf hsa hdepth hm rfl rfl trivial
    · exact Fits.leaf hsa hdepth hm rfl rfl trivial
    · exact Fits.leaf hsa hdepth hm rfl rfl trivial
    · exact Fits.leaf hsa hdepth hm rfl rfl trivial
    · rw [sound_widen]
      exact ih.indicatorCall depth s2 a (by omega) hm.valid (hm.operands.trans hsa)
    · rw [sound_widen]
      exact ih.quantileCall depth s2 a (by omega) hm.valid (hm.operands.trans hsa)
    · exact hsv.boundary

/-- An accessor argument is a whole expression, read at the level it is given. -/
theorem parseArgument_sound {c : Cursor} {types : List ValueType} {what : String}
    (ih : ParsesSoundBelow text (c.rest.length * 32 + 16)) (hc : c.Valid text) :
    Sound text c.operands depth (parseArgument depth c types what) := by
  rw [parseArgument]
  split
  rename_i s hs hsk
  have hms : Moves text c s := hc.skip_eq hsk
  have hx := ih.logicalOr depth s (by omega) hms.valid
  split
  · rename_i err hpar
    rw [hpar] at hx
    exact hx
  · rename_i x ty d hd hpar
    rw [hpar] at hx
    split
    · exact hms.operands ▸ hx
    · exact hms.valid.boundary

/-- `Indicator(name, instrument, time)`: every failure stands at a boundary, and the call is
one node over its three arguments. -/
theorem parseIndicatorCall_sound {a : Nat} {c : Cursor}
    (ih : ParsesSoundBelow text (c.rest.length * 32 + 17)) (hc : c.Valid text)
    (hca : c.operands = a + 1) :
    Sound text a depth (parseIndicatorCall (depth + 1) c) := by
  rw [parseIndicatorCall]
  rcases hexp1 : c.expect '(' with err | ⟨c1, h1⟩
  · exact hc.expect_error hexp1
  have hm1 : Moves text c c1 := hc.expect_ok hexp1
  dsimp only
  have hn := ih.argument (depth + 1) c1 [.text] "indicator name" (by omega) hm1.valid
  rcases hpar1 : parseArgument (depth + 1) c1 [.text] "indicator name" with
    err | ⟨⟨name, τ⟩, c2, h2⟩
  · rw [hpar1] at hn
    exact hn
  rw [hpar1] at hn
  dsimp only
  -- an unknown literal name is reported where the name starts
  rcases hcheck : checkIndicatorName c1.skip.1.pos name with err | name'
  · show Boundary text err.position
    rw [checkIndicatorName_error hcheck]
    exact hm1.valid.skip.valid.boundary
  rcases hexp2 : c2.expect ',' with err | ⟨c3, h3⟩
  · exact hn.valid.expect_error hexp2
  have hm3 : Moves text c2 c3 := hn.valid.expect_ok hexp2
  dsimp only
  have hi := ih.argument (depth + 1) c3 [.text] "instrument" (by omega) hm3.valid
  rcases hpar3 : parseArgument (depth + 1) c3 [.text] "instrument" with
    err | ⟨⟨inst, τi⟩, c4, h4⟩
  · rw [hpar3] at hi
    exact hi
  rw [hpar3] at hi
  dsimp only
  rcases hexp4 : c4.expect ',' with err | ⟨c5, h5⟩
  · exact hi.valid.expect_error hexp4
  have hm5 : Moves text c4 c5 := hi.valid.expect_ok hexp4
  dsimp only
  have ht := ih.argument (depth + 1) c5 [.number] "time" (by omega) hm5.valid
  rcases hpar5 : parseArgument (depth + 1) c5 [.number] "time" with err | ⟨⟨t, τt⟩, c6, h6⟩
  · rw [hpar5] at ht
    exact ht
  rw [hpar5] at ht
  dsimp only
  rcases hexp6 : c6.expect ')' with err | ⟨c7, h7⟩
  · exact ht.valid.expect_error hexp6
  exact Fits.indicator hca hm1 hn (checkIndicatorName_ok hcheck) hm3 hi hm5 ht
    (ht.valid.expect_ok hexp6)

/-- `IndQuantile(name, percentile, instrument, time)`: every failure stands at a boundary, and
the call is one node over its four arguments. -/
theorem parseQuantileCall_sound {a : Nat} {c : Cursor}
    (ih : ParsesSoundBelow text (c.rest.length * 32 + 18)) (hc : c.Valid text)
    (hca : c.operands = a + 1) :
    Sound text a depth (parseQuantileCall (depth + 1) c) := by
  rw [parseQuantileCall]
  rcases hexp1 : c.expect '(' with err | ⟨c1, h1⟩
  · exact hc.expect_error hexp1
  have hm1 : Moves text c c1 := hc.expect_ok hexp1
  dsimp only
  have hn := ih.argument (depth + 1) c1 [.text] "indicator name" (by omega) hm1.valid
  rcases hpar1 : parseArgument (depth + 1) c1 [.text] "indicator name" with
    err | ⟨⟨name, τ⟩, c2, h2⟩
  · rw [hpar1] at hn
    exact hn
  rw [hpar1] at hn
  dsimp only
  rcases hcheck : checkIndicatorName c1.skip.1.pos name with err | name'
  · show Boundary text err.position
    rw [checkIndicatorName_error hcheck]
    exact hm1.valid.skip.valid.boundary
  rcases hexp2 : c2.expect ',' with err | ⟨c3, h3⟩
  · exact hn.valid.expect_error hexp2
  have hm3 : Moves text c2 c3 := hn.valid.expect_ok hexp2
  dsimp only
  have hp := ih.argument (depth + 1) c3 [.text, .number] "percentile" (by omega) hm3.valid
  rcases hpar3 : parseArgument (depth + 1) c3 [.text, .number] "percentile" with
    err | ⟨⟨pct, τp⟩, c4, h4⟩
  · rw [hpar3] at hp
    exact hp
  rw [hpar3] at hp
  dsimp only
  -- an unknown literal percentile is reported where the percentile starts
  rcases hcheckp : checkPercentile c3.skip.1.pos pct with err | pct'
  · show Boundary text err.position
    rw [checkPercentile_error hcheckp]
    exact hm3.valid.skip.valid.boundary
  rcases hexp4 : c4.expect ',' with err | ⟨c5, h5⟩
  · exact hp.valid.expect_error hexp4
  have hm5 : Moves text c4 c5 := hp.valid.expect_ok hexp4
  dsimp only
  have hi := ih.argument (depth + 1) c5 [.text] "instrument" (by omega) hm5.valid
  rcases hpar5 : parseArgument (depth + 1) c5 [.text] "instrument" with
    err | ⟨⟨inst, τi⟩, c6, h6⟩
  · rw [hpar5] at hi
    exact hi
  rw [hpar5] at hi
  dsimp only
  rcases hexp6 : c6.expect ',' with err | ⟨c7, h7⟩
  · exact hi.valid.expect_error hexp6
  have hm7 : Moves text c6 c7 := hi.valid.expect_ok hexp6
  dsimp only
  have ht := ih.argument (depth + 1) c7 [.number] "time" (by omega) hm7.valid
  rcases hpar7 : parseArgument (depth + 1) c7 [.number] "time" with err | ⟨⟨t, τt⟩, c8, h8⟩
  · rw [hpar7] at ht
    exact ht
  rw [hpar7] at ht
  dsimp only
  rcases hexp8 : c8.expect ')' with err | ⟨c9, h9⟩
  · exact ht.valid.expect_error hexp8
  exact Fits.quantile hca hm1 hn (checkIndicatorName_ok hcheck) hm3 hp
    (checkPercentile_ok hcheckp) hm5 hi hm7 ht (ht.valid.expect_ok hexp8)

end Steps

/-- Every parsing function is sound, from every valid cursor: a strong induction on the
termination measure, each function's step lemma using the functions below it. -/
theorem parsesSoundBelow (text : List Char) (n : Nat) : ParsesSoundBelow text n := by
  induction n using Nat.strongRecOn with
  | ind n ih =>
    exact ⟨fun _ _ h hc => parseOr_sound (ih _ h) hc,
      fun _ _ _ _ h hl => orRest_sound (ih _ h) hl,
      fun _ _ h hc => parseAnd_sound (ih _ h) hc,
      fun _ _ _ _ h hl => andRest_sound (ih _ h) hl,
      fun _ _ h hc => parseEquality_sound (ih _ h) hc,
      fun _ _ _ _ h hl => equalityRest_sound (ih _ h) hl,
      fun _ _ h hc => parseComparison_sound (ih _ h) hc,
      fun _ _ _ _ h hl => comparisonRest_sound (ih _ h) hl,
      fun _ _ h hc => parseAdditive_sound (ih _ h) hc,
      fun _ _ _ _ h hl => additiveRest_sound (ih _ h) hl,
      fun _ _ h hc => parseMultiplicative_sound (ih _ h) hc,
      fun _ _ _ _ h hl => multiplicativeRest_sound (ih _ h) hl,
      fun _ _ h hc => parseUnary_sound (ih _ h) hc,
      fun _ _ _ _ h hc hat hca hd => parseUnaryOperand_sound (ih _ h) hc hat hca hd,
      fun _ _ _ h hc hca hd => parsePrimary_sound (ih _ h) hc hca hd,
      fun _ _ _ _ _ h hs hsa hd => parseWord_sound (ih _ h) hs hsa hd,
      fun _ _ _ _ h hc => parseArgument_sound (ih _ h) hc,
      fun _ _ _ h hc hca => parseIndicatorCall_sound (ih _ h) hc hca,
      fun _ _ _ h hc hca => parseQuantileCall_sound (ih _ h) hc hca⟩

/-- A whole expression read from any valid cursor is sound. -/
theorem parseOr_sound_all {text : List Char} (depth : Nat) {c : Cursor} (hc : c.Valid text) :
    Sound text c.operands depth (parseOr depth c) :=
  (parsesSoundBelow text (c.rest.length * 32 + 16)).logicalOr depth c (by omega) hc

/-! ## Compiled programs -/

/-- The parser starts at the first character of the program, before any operand. -/
theorem valid_start (program : String) :
    Cursor.Valid (program.toList ++ templateClose) ⟨program.toList ++ templateClose, 0, 0⟩ :=
  ⟨⟨[], rfl, rfl⟩, Nat.zero_le _⟩

/-- What reading a program gives: a tree within both budgets whose names are known, or a failure
at a boundary of `text`. -/
def Compiled (text : List Char) : Except ParseError Expr → Prop
  | .ok e => e.size + 1 ≤ 2 * maxOperands ∧ e.nesting ≤ maxNesting ∧ e.NamesKnown
  | .error err => Boundary text err.position

/-- Reading a program and its template's close. -/
theorem parseRaw_compiled (program : String) :
    Compiled (program.toList ++ templateClose) (parseRaw program) := by
  have hms := (valid_start program).skip
  have hsound := parseOr_sound_all 0 hms.valid
  rw [hms.operands] at hsound
  unfold parseRaw
  dsimp only
  rcases hpar : parseOr 0 (⟨program.toList ++ templateClose, 0, 0⟩ : Cursor).skip.1 with
    err | ⟨⟨e, τ⟩, d, hd⟩
  · rw [hpar] at hsound
    exact hsound
  rw [hpar] at hsound
  dsimp only
  split
  · exact hms.valid.boundary
  rcases hexp1 : d.expect ';' with err | ⟨d1, h1⟩
  · exact hsound.valid.expect_error hexp1
  have hm1 := hsound.valid.expect_ok hexp1
  dsimp only
  rcases hexp2 : d1.expect '}' with err | ⟨d2, h2⟩
  · exact hm1.valid.expect_error hexp2
  have hm2 := hm1.valid.expect_ok hexp2
  dsimp only
  split
  · -- the tree fits both budgets, counted from no operand at level zero
    obtain ⟨hv, _, hsize, hnest, hnames⟩ := hsound
    have := hv.operands
    exact ⟨by omega, by omega, hnames⟩
  · exact hm2.valid.skip.valid.boundary

/-- A compiled program's tree is within both budgets and its accessor names are known. -/
theorem parse_compiled {p : String} {e : Expr} (h : parse p = .ok e) :
    e.size + 1 ≤ 2 * maxOperands ∧ e.nesting ≤ maxNesting ∧ e.NamesKnown := by
  have hraw := parseRaw_compiled p
  unfold parse at h
  split at h
  · rename_i e' hr
    cases h
    rw [hr] at hraw
    exact hraw
  · cases h

/-- Parsing cannot go wrong on its input or its budgets. From every cursor that stands at a
character boundary of the program and its closing text, the expression parser stops at a
boundary or fails at one (offsets count from the program's start). A whole program compiles into
a tree of at most `2 · 512 - 1` nodes, none of whose paths holds more than 64 unary, accessor or
leaf nodes, so no walk over it recurses deeper than its node count; or it fails at a position
that is a character boundary of the program, at most its byte length. -/
theorem parse_shape (p : String) :
    (∀ depth (c : Cursor), c.Valid (p.toList ++ templateClose) →
      Sound (p.toList ++ templateClose) c.operands depth (parseOr depth c)) ∧
    ((∃ e, parse p = .ok e ∧ e.size ≤ 2 * maxOperands - 1 ∧ e.nesting ≤ maxNesting ∧
        e.height ≤ 2 * maxOperands - 1) ∨
      (∃ err, parse p = .error err ∧ err.position ≤ p.utf8ByteSize ∧
        (⟨err.position⟩ : String.Pos.Raw).IsValid p)) := by
  refine ⟨fun depth c hc => parseOr_sound_all depth hc, ?_⟩
  have hraw := parseRaw_compiled p
  unfold parse
  rcases hr : parseRaw p with err | e
  · -- a failure is held at the program's end
    rw [hr] at hraw
    exact .inr ⟨_, rfl, hraw.clamp⟩
  · rw [hr] at hraw
    obtain ⟨hsize, hnest, _⟩ := hraw
    have hheight := e.height_le_size
    exact .inl ⟨e, rfl, by omega, hnest, by omega⟩

end Strategy
end Backtest
