import Backtest.Strategy.Expr
import Backtest.Market.Indicator
import Backtest.Market.Quantile
import Backtest.Text.Alphanumeric
import Backtest.Text.Blank
import Backtest.Decimal.Read
/-!
# Strategy.Parser — reading and type checking a strategy predicate

A program is the body of the template `bool execute(string instrument, int time) { return
<program>; }`: it is read as an expression that must be followed by `;` and `}` and then by
blanks only. Every sub-expression is typed as it is read and the whole must be `bool`.

Precedence, lowest first: `||`/`or`, `&&`/`and`, `==`/`!=`, `<=`/`>=`/`<`/`>`, `+`/`-`,
`*`/`/`, then the unary `!`/`not`/`-`, then a primary. Binary operators group to the left; the
right operand is read before either operand's type is checked. Nesting of unary levels (every
parenthesis, operator and accessor argument passes one) stops at 64, and an expression holds at
most 512 operands.

Error positions are byte offsets into the program. Recursion is well founded: every step returns
a cursor that has not moved back, and each call either reads input or goes one level down,
measured by `rest.length * 32 + level`.
-/

namespace Backtest
namespace Strategy

/-- A compile error: a byte offset into the program and what was wrong there. -/
structure ParseError where
  position : Nat
  message : String
  deriving Repr, DecidableEq

namespace ParseError

/-- The one-line text of a compile error. -/
def render (e : ParseError) : String :=
  "parse error at position " ++ toString e.position ++ ": " ++ e.message

/-- How many characters of the program start before a byte offset. -/
def column (program : String) (position : Nat) : Nat :=
  let step (acc : Nat × Nat) (ch : Char) : Nat × Nat :=
    if acc.1 < position then (acc.1 + ch.utf8Size, acc.2 + 1) else acc
  (program.toList.foldl step (0, 0)).2

/-- The program, a caret under the failing character, and the error. -/
def context (e : ParseError) (program : String) : String :=
  program ++ "\n" ++ String.ofList (List.replicate (column program e.position) ' ') ++ "^\n" ++
    e.render

end ParseError

/-- The deepest nesting of unary levels. -/
def maxNesting : Nat := 64

/-- The most operands an expression may hold. -/
def maxOperands : Nat := 512

/-- Characters that make up words: letters and digits of any script, and the underscore. -/
def isWordChar (c : Char) : Bool := Text.isAlphanumeric c || c = '_'

/-- Bytes of a list of characters in UTF-8. -/
def utf8Length (cs : List Char) : Nat := cs.foldl (fun n c => n + c.utf8Size) 0

theorem length_takeWhile_add_dropWhile (l : List Char) (p : Char → Bool) :
    (l.takeWhile p).length + (l.dropWhile p).length = l.length := by
  rw [← List.length_append, List.takeWhile_append_dropWhile]

/-- Where the parser stands: the text still to read, its byte offset in the program, and how
many operands have been read. -/
structure Cursor where
  rest : List Char
  pos : Nat
  operands : Nat

/-- A cursor that has not moved back from `c`. -/
abbrev Cursor.After (c : Cursor) := {d : Cursor // d.rest.length ≤ c.rest.length}

/-- A cursor strictly ahead of `c`. -/
abbrev Cursor.Ahead (c : Cursor) := {d : Cursor // d.rest.length < c.rest.length}

/-- An expression with its type. -/
abbrev Typed := Expr × ValueType

/-- The outcome of a step from `c`: a value and a cursor that has not moved back. -/
abbrev Outcome (c : Cursor) (α : Type) := Except ParseError (α × c.After)

/-- An outcome from a cursor ahead of `c`, seen from `c`. -/
def Outcome.widen {c d : Cursor} {α : Type} (h : d.rest.length ≤ c.rest.length) :
    Outcome d α → Outcome c α
  | .error e => .error e
  | .ok (a, ⟨x, hx⟩) => .ok (a, ⟨x, Nat.le_trans hx h⟩)

namespace Cursor

/-- Moves past the text `taken`, which the cursor's rest starts with, leaving `tail`. -/
def past (c : Cursor) (taken tail : List Char) : Cursor :=
  { c with rest := tail, pos := c.pos + utf8Length taken }

/-- Skips blanks. -/
def skip (c : Cursor) : c.After :=
  ⟨c.past (c.rest.takeWhile Text.isBlank) (c.rest.dropWhile Text.isBlank), by
    have := length_takeWhile_add_dropWhile c.rest Text.isBlank
    simp only [past]; omega⟩

/-- Reads the text `p` if the rest starts with it. -/
def eat (c : Cursor) (p : List Char) : Option c.Ahead :=
  if h : p.isPrefixOf c.rest = true ∧ 0 < p.length then
    some ⟨c.past p (c.rest.drop p.length), by
      have := (List.isPrefixOf_iff_prefix.mp h.1).length_le
      simp only [past, List.length_drop]; omega⟩
  else none

/-- The word at the cursor: letters, digits and underscores, but nothing when it starts with
an ASCII digit. -/
def word (c : Cursor) : List Char :=
  match c.rest with
  | ch :: _ => if ch.isDigit then [] else c.rest.takeWhile isWordChar
  | [] => []

/-- Whether the keyword `kw` stands at the cursor, not followed by a word character. -/
def atKeyword (c : Cursor) (kw : String) : Bool :=
  kw.toList.isPrefixOf c.rest &&
    match c.rest.drop kw.length with
    | ch :: _ => !isWordChar ch
    | [] => true

/-- Reads a keyword. -/
def eatKeyword (c : Cursor) (kw : String) : Option c.Ahead :=
  if c.atKeyword kw then c.eat kw.toList else none

/-- Reads an operator unless one of the `longer` operators stands there. -/
def eatOperator (c : Cursor) (op : String) (longer : List String) : Option c.Ahead :=
  if longer.any (fun l => l.toList.isPrefixOf c.rest) then none else c.eat op.toList

/-- How the next token reads in a message. -/
def describeNext (c : Cursor) : String :=
  match c.word, c.rest with
  | [], ch :: _ => "'" ++ String.singleton ch ++ "'"
  | [], [] => "end of input"
  | w, _ => "'" ++ String.ofList w ++ "'"

/-- Skips blanks and reads the character `ch`. -/
def expect (c : Cursor) (ch : Char) : Except ParseError c.Ahead :=
  let ⟨s, hs⟩ := c.skip
  match s.eat [ch] with
  | some ⟨d, hd⟩ => .ok ⟨d, Nat.lt_of_lt_of_le hd hs⟩
  | none => .error ⟨s.pos, "expected '" ++ String.singleton ch ++ "', found " ++ s.describeNext⟩

end Cursor

/-- The characters of a number: digits with at most one point. -/
def numberChars : Bool → List Char → List Char
  | seenPoint, ch :: r =>
    if ch.isDigit then ch :: numberChars seenPoint r
    else if ch = '.' ∧ !seenPoint then ch :: numberChars true r
    else []
  | _, [] => []

theorem numberChars_prefix (b : Bool) (l : List Char) : (numberChars b l).isPrefixOf l = true := by
  induction l generalizing b with
  | nil => cases b <;> rfl
  | cons ch r ih =>
    unfold numberChars
    split
    · simp [List.isPrefixOf, ih]
    · split
      · simp [List.isPrefixOf, ih]
      · rfl

/-- Reads a number literal at the cursor, which stands on a digit or a point. -/
def parseNumber (c : Cursor) : Outcome c Typed :=
  let cs := numberChars false c.rest
  if cs.any Char.isDigit then
    match c.eat cs with
    | some ⟨d, hd⟩ =>
      match Decimal.readFloat (String.ofList cs) with
      | .ok x => .ok ((.number x, .number), ⟨d, Nat.le_of_lt hd⟩)
      | .error _ => .error ⟨c.pos, "invalid number: " ++ String.ofList cs⟩
    | none => .error ⟨c.pos, "expected number"⟩
  else .error ⟨c.pos, "expected number"⟩

/-- Reads a string literal at the cursor, which stands on a quote; there are no escapes. -/
def parseString (c : Cursor) : Outcome c Typed :=
  match c.rest with
  | _ :: body =>
    let inner := body.takeWhile (· != '"')
    match body.dropWhile (· != '"') with
    | _ :: after =>
      if h : after.length < c.rest.length then
        .ok ((.text (String.ofList inner), .text),
          ⟨{ c with rest := after, pos := c.pos + 2 + utf8Length inner }, Nat.le_of_lt h⟩)
      else .error ⟨c.pos, "unterminated string literal"⟩
    | [] => .error ⟨c.pos, "unterminated string literal"⟩
  | [] => .error ⟨c.pos, "unterminated string literal"⟩

/-- Checks an operand type of a binary operator. -/
def require (pos : Nat) (op : BinaryOp) (expected found : ValueType) : Except ParseError Unit :=
  if expected = found then .ok ()
  else .error ⟨pos, "operator '" ++ op.symbol ++ "' expects " ++ expected.name ++
    " operands, found " ++ found.name⟩

/-- A literal indicator name is replaced by its canonical name; an unknown one is an error. -/
def checkIndicatorName (pos : Nat) : Expr → Except ParseError Expr
  | .text s =>
    match Indicator.ofName? s with
    | some k => .ok (.text k.name)
    | none => .error ⟨pos, Indicator.unknownMessage s⟩
  | e => .ok e

/-- A literal percentile becomes its label, which must be one of the kept ones. -/
def checkPercentile (pos : Nat) (e : Expr) : Except ParseError Expr :=
  let label? := match e with
    | .text s => some s
    | .number x => some (Quantile.label x)
    | _ => none
  match label? with
  | none => .ok e
  | some l =>
    if Quantile.labels.contains l then .ok (.text l)
    else .error ⟨pos, "unknown percentile '" ++ l ++ "'"⟩

/-- The operators of a binary level, tried in order, with the longer operators that block each. -/
def eatBinary (c : Cursor) : List (BinaryOp × String × List String) → Option (BinaryOp × c.Ahead)
  | [] => none
  | (op, sym, longer) :: more =>
    match c.eatOperator sym longer with
    | some d => some (op, d)
    | none => eatBinary c more

/-- The operator or keyword that joins two operands at a logical level. -/
def eatLogical (c : Cursor) (op : BinaryOp) (sym kw : String) : Option (BinaryOp × c.Ahead) :=
  match c.eatOperator sym [] with
  | some d => some (op, d)
  | none => (c.eatKeyword kw).map (op, ·)

/-- The unary operator at the cursor: `!` (not starting `!=`), `not`, or `-`. -/
def eatUnary (c : Cursor) : Option (UnaryOp × c.Ahead) :=
  match c.eatOperator "!" ["!="] with
  | some d => some (.not, d)
  | none =>
    match c.eatKeyword "not" with
    | some d => some (.not, d)
    | none => (c.eatOperator "-" []).map (.negate, ·)

mutual

/-- `||` level. -/
def parseOr (depth : Nat) (c : Cursor) : Outcome c Typed :=
  match parseAnd depth c with
  | .error e => .error e
  | .ok (left, ⟨d, hd⟩) => (orRest depth d left).widen hd
termination_by c.rest.length * 32 + 15

/-- Further `||` operands. -/
def orRest (depth : Nat) (c : Cursor) (left : Typed) : Outcome c Typed :=
  match c.skip with
  | ⟨s, hs⟩ =>
    match eatLogical s .or "||" "or" with
    | none => .ok (left, ⟨s, hs⟩)
    | some (op, ⟨s2, h2⟩) =>
      match parseAnd depth s2 with
      | .error e => .error e
      | .ok ((r, rt), ⟨e, he⟩) =>
        match require s.pos op .bool left.2, require s.pos op .bool rt with
        | .error err, _ => .error err
        | .ok (), .error err => .error err
        | .ok (), .ok () =>
          (orRest depth e (.binary op left.1 r, .bool)).widen (by omega)
termination_by c.rest.length * 32 + 14

/-- `&&` level. -/
def parseAnd (depth : Nat) (c : Cursor) : Outcome c Typed :=
  match parseEquality depth c with
  | .error e => .error e
  | .ok (left, ⟨d, hd⟩) => (andRest depth d left).widen hd
termination_by c.rest.length * 32 + 13

/-- Further `&&` operands. -/
def andRest (depth : Nat) (c : Cursor) (left : Typed) : Outcome c Typed :=
  match c.skip with
  | ⟨s, hs⟩ =>
    match eatLogical s .and "&&" "and" with
    | none => .ok (left, ⟨s, hs⟩)
    | some (op, ⟨s2, h2⟩) =>
      match parseEquality depth s2 with
      | .error e => .error e
      | .ok ((r, rt), ⟨e, he⟩) =>
        match require s.pos op .bool left.2, require s.pos op .bool rt with
        | .error err, _ => .error err
        | .ok (), .error err => .error err
        | .ok (), .ok () =>
          (andRest depth e (.binary op left.1 r, .bool)).widen (by omega)
termination_by c.rest.length * 32 + 12

/-- `==` and `!=` level: both operands have one type. -/
def parseEquality (depth : Nat) (c : Cursor) : Outcome c Typed :=
  match parseComparison depth c with
  | .error e => .error e
  | .ok (left, ⟨d, hd⟩) => (equalityRest depth d left).widen hd
termination_by c.rest.length * 32 + 11

/-- Further `==` and `!=` operands. -/
def equalityRest (depth : Nat) (c : Cursor) (left : Typed) : Outcome c Typed :=
  match c.skip with
  | ⟨s, hs⟩ =>
    match eatBinary s [(.eq, "==", []), (.ne, "!=", [])] with
    | none => .ok (left, ⟨s, hs⟩)
    | some (op, ⟨s2, h2⟩) =>
      match parseComparison depth s2 with
      | .error e => .error e
      | .ok ((r, rt), ⟨e, he⟩) =>
        if left.2 = rt then
          (equalityRest depth e (.binary op left.1 r, .bool)).widen (by omega)
        else .error ⟨s.pos, "cannot compare " ++ left.2.name ++ " with " ++ rt.name ++
          " using '" ++ op.symbol ++ "'"⟩
termination_by c.rest.length * 32 + 10

/-- `<=`, `>=`, `<`, `>` level. -/
def parseComparison (depth : Nat) (c : Cursor) : Outcome c Typed :=
  match parseAdditive depth c with
  | .error e => .error e
  | .ok (left, ⟨d, hd⟩) => (comparisonRest depth d left).widen hd
termination_by c.rest.length * 32 + 9

/-- Further comparison operands. -/
def comparisonRest (depth : Nat) (c : Cursor) (left : Typed) : Outcome c Typed :=
  match c.skip with
  | ⟨s, hs⟩ =>
    match eatBinary s [(.le, "<=", []), (.ge, ">=", []), (.lt, "<", []), (.gt, ">", [])] with
    | none => .ok (left, ⟨s, hs⟩)
    | some (op, ⟨s2, h2⟩) =>
      match parseAdditive depth s2 with
      | .error e => .error e
      | .ok ((r, rt), ⟨e, he⟩) =>
        match require s.pos op .number left.2, require s.pos op .number rt with
        | .error err, _ => .error err
        | .ok (), .error err => .error err
        | .ok (), .ok () =>
          (comparisonRest depth e (.binary op left.1 r, .bool)).widen (by omega)
termination_by c.rest.length * 32 + 8

/-- `+` and `-` level. -/
def parseAdditive (depth : Nat) (c : Cursor) : Outcome c Typed :=
  match parseMultiplicative depth c with
  | .error e => .error e
  | .ok (left, ⟨d, hd⟩) => (additiveRest depth d left).widen hd
termination_by c.rest.length * 32 + 7

/-- Further `+` and `-` operands. -/
def additiveRest (depth : Nat) (c : Cursor) (left : Typed) : Outcome c Typed :=
  match c.skip with
  | ⟨s, hs⟩ =>
    match eatBinary s [(.add, "+", []), (.sub, "-", [])] with
    | none => .ok (left, ⟨s, hs⟩)
    | some (op, ⟨s2, h2⟩) =>
      match parseMultiplicative depth s2 with
      | .error e => .error e
      | .ok ((r, rt), ⟨e, he⟩) =>
        match require s.pos op .number left.2, require s.pos op .number rt with
        | .error err, _ => .error err
        | .ok (), .error err => .error err
        | .ok (), .ok () =>
          (additiveRest depth e (.binary op left.1 r, left.2)).widen (by omega)
termination_by c.rest.length * 32 + 6

/-- `*` and `/` level. -/
def parseMultiplicative (depth : Nat) (c : Cursor) : Outcome c Typed :=
  match parseUnary depth c with
  | .error e => .error e
  | .ok (left, ⟨d, hd⟩) => (multiplicativeRest depth d left).widen hd
termination_by c.rest.length * 32 + 5

/-- Further `*` and `/` operands. -/
def multiplicativeRest (depth : Nat) (c : Cursor) (left : Typed) : Outcome c Typed :=
  match c.skip with
  | ⟨s, hs⟩ =>
    match eatBinary s [(.mul, "*", []), (.div, "/", [])] with
    | none => .ok (left, ⟨s, hs⟩)
    | some (op, ⟨s2, h2⟩) =>
      match parseUnary depth s2 with
      | .error e => .error e
      | .ok ((r, rt), ⟨e, he⟩) =>
        match require s.pos op .number left.2, require s.pos op .number rt with
        | .error err, _ => .error err
        | .ok (), .error err => .error err
        | .ok (), .ok () =>
          (multiplicativeRest depth e (.binary op left.1 r, left.2)).widen (by omega)
termination_by c.rest.length * 32 + 4

/-- A unary level: counts one operand and one level of nesting. -/
def parseUnary (depth : Nat) (c : Cursor) : Outcome c Typed :=
  match c.skip with
  | ⟨s, hs⟩ =>
    if depth ≥ maxNesting then .error ⟨s.pos, "expression nested too deeply"⟩
    else if s.operands + 1 > maxOperands then .error ⟨s.pos, "expression too long"⟩
    else
      (parseUnaryOperand (depth + 1) s.pos ⟨s.rest, s.pos, s.operands + 1⟩).widen hs
termination_by c.rest.length * 32 + 3

/-- A unary operator applied to a unary level, or a primary; `at` is where it starts. -/
def parseUnaryOperand (depth : Nat) (at_ : Nat) (c : Cursor) : Outcome c Typed :=
  match c.skip with
  | ⟨s, hs⟩ =>
    match eatUnary s with
    | none => (parsePrimary depth s).widen hs
    | some (op, ⟨s2, h2⟩) =>
      match parseUnary depth s2 with
      | .error e => .error e
      | .ok ((e, ty), ⟨d, hd⟩) =>
        let expected : ValueType := if op = .not then .bool else .number
        if ty = expected then .ok ((.unary op e, ty), ⟨d, by omega⟩)
        else .error ⟨at_, "operator '" ++ op.symbol ++ "' expects a " ++ expected.name ++
          " operand, found " ++ ty.name⟩
termination_by c.rest.length * 32 + 2

/-- A parenthesised expression, literal, variable or accessor call. -/
def parsePrimary (depth : Nat) (c : Cursor) : Outcome c Typed :=
  match c.skip with
  | ⟨s, hs⟩ =>
    match s.eat ['('] with
    | some ⟨s2, h2⟩ =>
      match parseOr depth s2 with
      | .error e => .error e
      | .ok (inner, ⟨d, hd⟩) =>
        match d.expect ')' with
        | .error e => .error e
        | .ok ⟨e, he⟩ => .ok (inner, ⟨e, by omega⟩)
    | none =>
      match s.rest with
      | '"' :: _ => (parseString s).widen hs
      | ch :: _ =>
        if ch.isDigit ∨ ch = '.' then (parseNumber s).widen hs
        else parseWord depth c s hs
      | [] => parseWord depth c s hs
termination_by c.rest.length * 32 + 1

/-- A keyword, variable or accessor call at `s`, which is `c` after blanks. -/
def parseWord (depth : Nat) (c s : Cursor) (hs : s.rest.length ≤ c.rest.length) : Outcome c Typed :=
  let w := s.word
  match s.eat w with
  | none => .error ⟨s.pos, "expected expression, found " ++ s.describeNext⟩
  | some ⟨s2, h2⟩ =>
    let done (t : Typed) : Outcome c Typed := .ok (t, ⟨s2, by omega⟩)
    match String.ofList w with
    | "true" => done (.bool true, .bool)
    | "false" => done (.bool false, .bool)
    | "instrument" => done (.instrument, .text)
    | "stock" => done (.instrument, .text)
    | "time" => done (.time, .number)
    | "Indicator" => (parseIndicatorCall depth s2).widen (by omega)
    | "IndQuantile" => (parseQuantileCall depth s2).widen (by omega)
    | other => .error ⟨s.pos, "unknown identifier '" ++ other ++ "'"⟩
termination_by c.rest.length * 32

/-- An accessor argument, whose type must be one of `types`. -/
def parseArgument (depth : Nat) (c : Cursor) (types : List ValueType) (what : String) :
    Outcome c Typed :=
  match c.skip with
  | ⟨s, hs⟩ =>
    match parseOr depth s with
    | .error e => .error e
    | .ok ((e, ty), ⟨d, hd⟩) =>
      if types.contains ty then .ok ((e, ty), ⟨d, by omega⟩)
      else .error ⟨s.pos, what ++ " must be " ++ " or ".intercalate (types.map ValueType.name) ++
        ", found " ++ ty.name⟩
termination_by c.rest.length * 32 + 16

/-- The arguments of `Indicator(name, instrument, time)` after the word. -/
def parseIndicatorCall (depth : Nat) (c : Cursor) : Outcome c Typed :=
  match c.expect '(' with
  | .error e => .error e
  | .ok ⟨c1, h1⟩ =>
    let nameAt := c1.skip.1.pos
    match parseArgument depth c1 [.text] "indicator name" with
    | .error e => .error e
    | .ok ((name, _), ⟨c2, h2⟩) =>
      match checkIndicatorName nameAt name, c2.expect ',' with
      | .error e, _ => .error e
      | .ok _, .error e => .error e
      | .ok name, .ok ⟨c3, h3⟩ =>
        match parseArgument depth c3 [.text] "instrument" with
        | .error e => .error e
        | .ok ((inst, _), ⟨c4, h4⟩) =>
          match c4.expect ',' with
          | .error e => .error e
          | .ok ⟨c5, h5⟩ =>
            match parseArgument depth c5 [.number] "time" with
            | .error e => .error e
            | .ok ((t, _), ⟨c6, h6⟩) =>
              match c6.expect ')' with
              | .error e => .error e
              | .ok ⟨c7, h7⟩ => .ok ((.indicator name inst t, .number), ⟨c7, by omega⟩)
termination_by c.rest.length * 32 + 17

/-- The arguments of `IndQuantile(name, percentile, instrument, time)` after the word. -/
def parseQuantileCall (depth : Nat) (c : Cursor) : Outcome c Typed :=
  match c.expect '(' with
  | .error e => .error e
  | .ok ⟨c1, h1⟩ =>
    let nameAt := c1.skip.1.pos
    match parseArgument depth c1 [.text] "indicator name" with
    | .error e => .error e
    | .ok ((name, _), ⟨c2, h2⟩) =>
      match checkIndicatorName nameAt name, c2.expect ',' with
      | .error e, _ => .error e
      | .ok _, .error e => .error e
      | .ok name, .ok ⟨c3, h3⟩ =>
        let pctAt := c3.skip.1.pos
        match parseArgument depth c3 [.text, .number] "percentile" with
        | .error e => .error e
        | .ok ((pct, _), ⟨c4, h4⟩) =>
          match checkPercentile pctAt pct, c4.expect ',' with
          | .error e, _ => .error e
          | .ok _, .error e => .error e
          | .ok pct, .ok ⟨c5, h5⟩ =>
            match parseArgument depth c5 [.text] "instrument" with
            | .error e => .error e
            | .ok ((inst, _), ⟨c6, h6⟩) =>
              match c6.expect ',' with
              | .error e => .error e
              | .ok ⟨c7, h7⟩ =>
                match parseArgument depth c7 [.number] "time" with
                | .error e => .error e
                | .ok ((t, _), ⟨c8, h8⟩) =>
                  match c8.expect ')' with
                  | .error e => .error e
                  | .ok ⟨c9, h9⟩ =>
                    .ok ((.quantile name pct inst t, .number), ⟨c9, by omega⟩)
termination_by c.rest.length * 32 + 18

end

/-- The text that closes the template after the program. -/
def templateClose : List Char := [';', ' ', '}']

/-- Reads a program as a typed expression, with positions relative to the program. -/
def parseRaw (program : String) : Except ParseError Expr :=
  let c : Cursor := ⟨program.toList ++ templateClose, 0, 0⟩
  let s := c.skip.1
  match parseOr 0 s with
  | .error e => .error e
  | .ok ((e, ty), ⟨d, _⟩) =>
    if ty ≠ .bool then .error ⟨s.pos, "strategy must evaluate to bool, found " ++ ty.name⟩
    else
      match d.expect ';' with
      | .error err => .error err
      | .ok ⟨d1, _⟩ =>
        match d1.expect '}' with
        | .error err => .error err
        | .ok ⟨d2, _⟩ =>
          let d3 := d2.skip.1
          if d3.rest.isEmpty then .ok e
          else .error ⟨d3.pos, "unexpected input after expression: '" ++ String.ofList d3.rest ++ "'"⟩

/-- Compiles a program into a bool-typed expression. Error positions never pass the end of
the program. -/
def parse (program : String) : Except ParseError Expr :=
  match parseRaw program with
  | .ok e => .ok e
  | .error err => .error { err with position := Nat.min err.position program.utf8ByteSize }

end Strategy
end Backtest
