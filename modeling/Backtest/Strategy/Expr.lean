import Backtest.Decimal.Text
/-!
# Strategy.Expr — the syntax trees of strategy predicates

A strategy is a predicate over an instrument and a time index. Its expressions are numbers,
booleans, strings, the current instrument and time, unary and binary operators, and two
accessors: `Indicator(name, instrument, time)` and `IndQuantile(name, percentile, instrument,
time)`. Every expression has one of three static types.

The printed form is fully parenthesised: a binary node prints as `(l op r)`, a unary node as
`op(x)`, a number with the fewest digits and no exponent, a string between quotes.
-/

namespace Backtest
namespace Strategy

/-- The static type of an expression. -/
inductive ValueType where
  | number
  | bool
  | text
  deriving Repr, DecidableEq

/-- The name of a type in messages. -/
def ValueType.name : ValueType → String
  | .number => "number"
  | .bool => "bool"
  | .text => "string"

/-- Logical negation and arithmetic negation. -/
inductive UnaryOp where
  | not
  | negate
  deriving Repr, DecidableEq

/-- The symbol of a unary operator. -/
def UnaryOp.symbol : UnaryOp → String
  | .not => "!"
  | .negate => "-"

/-- The binary operators, lowest precedence first. -/
inductive BinaryOp where
  | or
  | and
  | eq
  | ne
  | lt
  | le
  | gt
  | ge
  | add
  | sub
  | mul
  | div
  deriving Repr, DecidableEq

/-- The symbol of a binary operator. -/
def BinaryOp.symbol : BinaryOp → String
  | .or => "||"
  | .and => "&&"
  | .eq => "=="
  | .ne => "!="
  | .lt => "<"
  | .le => "<="
  | .gt => ">"
  | .ge => ">="
  | .add => "+"
  | .sub => "-"
  | .mul => "*"
  | .div => "/"

/-- A strategy expression. -/
inductive Expr where
  | number (x : Float)
  | bool (b : Bool)
  | text (s : String)
  /-- The instrument being evaluated. -/
  | instrument
  /-- The time index being evaluated. -/
  | time
  | unary (op : UnaryOp) (operand : Expr)
  | binary (op : BinaryOp) (left right : Expr)
  /-- The value of an indicator series. -/
  | indicator (name instrument time : Expr)
  /-- The value of a rolling quantile series of an indicator. -/
  | quantile (name percentile instrument time : Expr)
  deriving Inhabited

namespace Expr

/-- The printed form. -/
def render : Expr → String
  | number x => Decimal.plain.render x
  | bool b => if b then "true" else "false"
  | text s => "\"" ++ s ++ "\""
  | instrument => "instrument"
  | time => "time"
  | unary op e => op.symbol ++ "(" ++ render e ++ ")"
  | binary op l r => "(" ++ render l ++ " " ++ op.symbol ++ " " ++ render r ++ ")"
  | indicator n i t => "Indicator(" ++ render n ++ ", " ++ render i ++ ", " ++ render t ++ ")"
  | quantile n p i t =>
    "IndQuantile(" ++ render n ++ ", " ++ render p ++ ", " ++ render i ++ ", " ++ render t ++ ")"

/-- The literal indicator names in the name position of accessors, in reading order. -/
def namedIndicators : Expr → List String
  | unary _ e => namedIndicators e
  | binary _ l r => namedIndicators l ++ namedIndicators r
  | indicator n i t =>
    (match n with
      | text s => [s]
      | _ => []) ++ namedIndicators i ++ namedIndicators t
  | quantile n p i t =>
    (match n with
      | text s => [s]
      | _ => []) ++ namedIndicators p ++ namedIndicators i ++ namedIndicators t
  | _ => []

/-- Inserts a string into an ascending list without repeats. -/
def insertSorted (s : String) : List String → List String
  | [] => [s]
  | x :: xs => if s < x then s :: x :: xs else if s = x then x :: xs else x :: insertSorted s xs

/-- The literal indicator names an expression reads, ascending and without repeats. -/
def indicators (e : Expr) : List String :=
  e.namedIndicators.foldl (fun acc s => insertSorted s acc) []

end Expr
end Strategy
end Backtest
