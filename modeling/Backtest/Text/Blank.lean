/-!
# Text.Blank — the blanks of every script

A blank is a character with the Unicode property White_Space: the ASCII controls tab through
carriage return, space, next line, no-break space, the Ogham space mark, the typographic
spaces U+2000 to U+200A, the line and paragraph separators, the narrow no-break space, the
medium mathematical space and the ideographic space. Blanks separate the tokens of the
strategy language and are cut from the ends of names in instrument lists.
-/

namespace Backtest
namespace Text

/-- The code points of the blanks outside the run U+2000 to U+200A. -/
def blankPoints : List Nat :=
  [0x09, 0x0A, 0x0B, 0x0C, 0x0D, 0x20, 0x85, 0xA0, 0x1680, 0x2028, 0x2029, 0x202F, 0x205F, 0x3000]

/-- Whether a character is a blank. -/
def isBlank (c : Char) : Bool :=
  (0x2000 ≤ c.toNat && c.toNat ≤ 0x200A) || blankPoints.contains c.toNat

/-- The text without blanks at either end. -/
def trimBlanks (s : String) : String :=
  String.ofList ((s.toList.dropWhile isBlank).reverse.dropWhile isBlank).reverse

end Text
end Backtest
