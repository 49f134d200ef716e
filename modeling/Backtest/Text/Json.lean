import Backtest.Decimal.Text
/-!
# Text.Json — JSON documents as the program writes them

A document is a tree whose objects keep their members in the order given. Numbers are held as
the literal text that stands for them, so a double keeps the form chosen by `Decimal.json`
(`100.0`, `1e-7`) and a count is written in full.

Strings escape the quote, the backslash and the control characters below U+0020 (the usual
short forms where they exist, `\u00XX` otherwise); every other character is written as is.
`pretty` indents by two spaces, puts each element on its own line and writes `"key": value`.
-/

namespace Backtest

/-- A JSON document. -/
inductive Json where
  | null
  | bool (b : Bool)
  /-- A number, as the literal text that stands for it. -/
  | num (literal : String)
  | str (s : String)
  | arr (items : List Json)
  | obj (members : List (String × Json))
  deriving Inhabited, Repr

namespace Json

/-- A count. -/
def nat (n : Nat) : Json := num (toString n)

/-- A double in its shortest form; values that JSON cannot hold become `null`. -/
def float (x : Float) : Json :=
  if Decimal.isFinite x then num (Decimal.json.render x) else null

/-- The hexadecimal digit of a number below 16. -/
def hexDigit (n : Nat) : Char :=
  if n < 10 then Char.ofNat ('0'.toNat + n) else Char.ofNat ('a'.toNat + n - 10)

/-- The escaped form of one character inside a string. -/
def escapeChar (c : Char) : List Char :=
  if c = '"' then ['\\', '"']
  else if c = '\\' then ['\\', '\\']
  else if c = '\n' then ['\\', 'n']
  else if c = '\r' then ['\\', 'r']
  else if c = '\t' then ['\\', 't']
  else if c.toNat = 8 then ['\\', 'b']
  else if c.toNat = 12 then ['\\', 'f']
  else if c.toNat < 32 then ['\\', 'u', '0', '0', hexDigit (c.toNat / 16), hexDigit (c.toNat % 16)]
  else [c]

/-- A string literal. -/
def quote (s : String) : String :=
  String.ofList ('"' :: (s.toList.flatMap escapeChar ++ ['"']))

mutual
/-- Compact text, without any blank. -/
def compact : Json → String
  | null => "null"
  | bool b => if b then "true" else "false"
  | num t => t
  | str s => quote s
  | arr items => "[" ++ compactItems items ++ "]"
  | obj members => "\x7b" ++ compactMembers members ++ "\x7d"

/-- Compact text of array items, comma separated. -/
def compactItems : List Json → String
  | [] => ""
  | [j] => compact j
  | j :: rest => compact j ++ "," ++ compactItems rest

/-- Compact text of object members, comma separated. -/
def compactMembers : List (String × Json) → String
  | [] => ""
  | [(k, j)] => quote k ++ ":" ++ compact j
  | (k, j) :: rest => quote k ++ ":" ++ compact j ++ "," ++ compactMembers rest
end

/-- The blanks that open a line at a depth. -/
def indent (depth : Nat) : String :=
  String.ofList (List.replicate (2 * depth) ' ')

mutual
/-- Indented text at a depth: each element on a line of its own. -/
def prettyAt (depth : Nat) : Json → String
  | arr [] => "[]"
  | obj [] => "\x7b\x7d"
  | arr items => "[\n" ++ prettyItems (depth + 1) items ++ "\n" ++ indent depth ++ "]"
  | obj members => "\x7b\n" ++ prettyMembers (depth + 1) members ++ "\n" ++ indent depth ++ "\x7d"
  | j => compact j

/-- Indented array items, one per line. -/
def prettyItems (depth : Nat) : List Json → String
  | [] => ""
  | [j] => indent depth ++ prettyAt depth j
  | j :: rest => indent depth ++ prettyAt depth j ++ ",\n" ++ prettyItems depth rest

/-- Indented object members, one per line. -/
def prettyMembers (depth : Nat) : List (String × Json) → String
  | [] => ""
  | [(k, j)] => indent depth ++ quote k ++ ": " ++ prettyAt depth j
  | (k, j) :: rest =>
    indent depth ++ quote k ++ ": " ++ prettyAt depth j ++ ",\n" ++ prettyMembers depth rest
end

/-- Indented text of a document. -/
def pretty (j : Json) : String := prettyAt 0 j

end Json
end Backtest
