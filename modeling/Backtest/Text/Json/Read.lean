import Backtest.Text.Json
/-!
# Text.Json.Read — reading a JSON document

The reader takes the strict grammar of JSON: blanks are space, tab, line feed and carriage
return; strings hold no raw control character, and a `\u` escape of a high surrogate must be
followed by one of a low surrogate; numbers are `-? (0 | [1-9][0-9]*) (.[0-9]+)? ([eE][+-]?[0-9]+)?`
and are kept as their literal text, so nothing about them is lost (not even the sign of
`-0.0`). After the document only blanks may follow.

Every step consumes input, so a budget of one step per character bounds the recursion.
-/

namespace Backtest
namespace Json

/-- Drops JSON blanks. -/
def skipBlanks : List Char → List Char
  | c :: rest => if c = ' ' ∨ c = '\t' ∨ c = '\n' ∨ c = '\r' then skipBlanks rest else c :: rest
  | [] => []

/-- The value of a hexadecimal digit. -/
def hexValue (c : Char) : Option Nat :=
  if '0' ≤ c ∧ c ≤ '9' then some (c.toNat - '0'.toNat)
  else if 'a' ≤ c ∧ c ≤ 'f' then some (c.toNat - 'a'.toNat + 10)
  else if 'A' ≤ c ∧ c ≤ 'F' then some (c.toNat - 'A'.toNat + 10)
  else none

/-- Reads four hexadecimal digits. -/
def readHex4 : List Char → Option (Nat × List Char)
  | a :: b :: c :: d :: rest => do
    let va ← hexValue a
    let vb ← hexValue b
    let vc ← hexValue c
    let vd ← hexValue d
    return (((va * 16 + vb) * 16 + vc) * 16 + vd, rest)
  | _ => none

/-- Reads the code point of a `\u` escape (after the `u`), joining a surrogate pair. -/
def readUnicodeEscape (cs : List Char) : Option (Char × List Char) := do
  let (hi, rest) ← readHex4 cs
  if 0xD800 ≤ hi ∧ hi < 0xDC00 then
    match rest with
    | '\\' :: 'u' :: rest' =>
      let (lo, rest'') ← readHex4 rest'
      if 0xDC00 ≤ lo ∧ lo < 0xE000 then
        return (Char.ofNat (0x10000 + (hi - 0xD800) * 0x400 + (lo - 0xDC00)), rest'')
      else none
    | _ => none
  else if 0xDC00 ≤ hi ∧ hi < 0xE000 then none
  else return (Char.ofNat hi, rest)

/-- Reads the body of a string after its opening quote, up to and past the closing quote;
each step consumes at least one character of the budget. -/
def readStringChars : Nat → List Char → List Char → Option (String × List Char)
  | 0, _, _ => none
  | _ + 1, [], _ => none
  | _ + 1, '"' :: rest, acc => some (String.ofList acc.reverse, rest)
  | fuel + 1, '\\' :: rest, acc =>
    match rest with
    | '"' :: r => readStringChars fuel r ('"' :: acc)
    | '\\' :: r => readStringChars fuel r ('\\' :: acc)
    | '/' :: r => readStringChars fuel r ('/' :: acc)
    | 'b' :: r => readStringChars fuel r (Char.ofNat 8 :: acc)
    | 'f' :: r => readStringChars fuel r (Char.ofNat 12 :: acc)
    | 'n' :: r => readStringChars fuel r ('\n' :: acc)
    | 'r' :: r => readStringChars fuel r ('\r' :: acc)
    | 't' :: r => readStringChars fuel r ('\t' :: acc)
    | 'u' :: r =>
      match readUnicodeEscape r with
      | some (c, r') => readStringChars fuel r' (c :: acc)
      | none => none
    | _ => none
  | fuel + 1, c :: rest, acc =>
    if c.toNat < 32 then none else readStringChars fuel rest (c :: acc)

/-- Reads a string body with a budget of its length. -/
def readStringBody (cs : List Char) : Option (String × List Char) :=
  readStringChars (cs.length + 1) cs []

/-- Splits off the longest prefix of ASCII digits. -/
def spanDigits (cs : List Char) : List Char × List Char :=
  (cs.takeWhile Char.isDigit, cs.dropWhile Char.isDigit)

/-- Reads a number literal and returns its text. -/
def readNumber (cs : List Char) : Option (String × List Char) :=
  let (sign, body) := match cs with
    | '-' :: r => (['-'], r)
    | r => ([], r)
  let (whole, rest) := spanDigits body
  let wholeOk := match whole with
    | [] => false
    | ['0'] => true
    | d :: _ => d != '0'
  if !wholeOk then none
  else
    let frac : Option (List Char × List Char) := match rest with
      | '.' :: r =>
        let (ds, r') := spanDigits r
        if ds.isEmpty then none else some ('.' :: ds, r')
      | r => some ([], r)
    match frac with
    | none => none
    | some (fracPart, rest) =>
      let expo : Option (List Char × List Char) := match rest with
        | e :: r =>
          if e = 'e' ∨ e = 'E' then
            let (sgn, r') := match r with
              | '+' :: t => (['+'], t)
              | '-' :: t => (['-'], t)
              | t => ([], t)
            let (ds, r'') := spanDigits r'
            if ds.isEmpty then none else some (e :: sgn ++ ds, r'')
          else some ([], e :: r)
        | [] => some ([], [])
      expo.map fun (expPart, rest) =>
        (String.ofList (sign ++ whole ++ fracPart ++ expPart), rest)

mutual
/-- Reads one value after optional blanks. -/
def readValue : Nat → List Char → Option (Json × List Char)
  | 0, _ => none
  | fuel + 1, cs =>
    match skipBlanks cs with
    | 'n' :: 'u' :: 'l' :: 'l' :: r => some (null, r)
    | 't' :: 'r' :: 'u' :: 'e' :: r => some (bool true, r)
    | 'f' :: 'a' :: 'l' :: 's' :: 'e' :: r => some (bool false, r)
    | '"' :: r => (readStringBody r).map fun (s, r') => (str s, r')
    | '[' :: r =>
      match skipBlanks r with
      | ']' :: r' => some (arr [], r')
      | r' => (readItems fuel r' []).map fun (xs, r'') => (arr xs, r'')
    | '{' :: r =>
      match skipBlanks r with
      | '}' :: r' => some (obj [], r')
      | r' => (readMembers fuel r' []).map fun (ms, r'') => (obj ms, r'')
    | r => (readNumber r).map fun (t, r') => (num t, r')

/-- Reads the items of an array after its first item begins, through the closing bracket. -/
def readItems : Nat → List Char → List Json → Option (List Json × List Char)
  | 0, _, _ => none
  | fuel + 1, cs, acc =>
    match readValue fuel cs with
    | none => none
    | some (v, r) =>
      match skipBlanks r with
      | ',' :: r' => readItems fuel r' (v :: acc)
      | ']' :: r' => some ((v :: acc).reverse, r')
      | _ => none

/-- Reads the members of an object after its first member begins, through the closing brace. -/
def readMembers : Nat → List Char → List (String × Json) → Option (List (String × Json) × List Char)
  | 0, _, _ => none
  | fuel + 1, cs, acc =>
    match skipBlanks cs with
    | '"' :: r =>
      match readStringBody r with
      | none => none
      | some (k, r') =>
        match skipBlanks r' with
        | ':' :: r'' =>
          match readValue fuel r'' with
          | none => none
          | some (v, r''') =>
            match skipBlanks r''' with
            | ',' :: t => readMembers fuel t ((k, v) :: acc)
            | '}' :: t => some (((k, v) :: acc).reverse, t)
            | _ => none
        | _ => none
    | _ => none
end

/-- Reads a whole document; only blanks may follow it. -/
def read? (s : String) : Option Json :=
  let cs := s.toList
  match readValue (cs.length + 1) cs with
  | some (v, rest) => if (skipBlanks rest).isEmpty then some v else none
  | none => none

/-- The first member of an object with a key, if the document is an object. -/
def get? (j : Json) (k : String) : Option Json :=
  match j with
  | obj ms => (ms.find? (fun m => m.1 == k)).map (·.2)
  | _ => none

end Json
end Backtest
