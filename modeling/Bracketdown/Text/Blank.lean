/-!
# Blank characters

Two notions of blank are in use. `isBlank` is the Unicode property White_Space; `isLineBlank` is the
ASCII blank inside a line: blank, tab, line tabulation and form feed.
-/

namespace Bracketdown.Text

/-- The Unicode property White_Space. -/
def isBlank (c : Char) : Bool :=
  let n := c.toNat
  (0x09 ≤ n && n ≤ 0x0d) || n = 0x20 || n = 0x85 || n = 0xa0 || n = 0x1680
    || (0x2000 ≤ n && n ≤ 0x200a) || n = 0x2028 || n = 0x2029 || n = 0x202f || n = 0x205f
    || n = 0x3000

/-- The ASCII blanks that may stand inside a line. -/
def isLineBlank (c : Char) : Bool := c = ' ' || c = '\t' || c = '\x0b' || c = '\x0c'

/-- The ASCII blanks and line ends. -/
def isAsciiBlank (c : Char) : Bool := isLineBlank c || c = '\n' || c = '\r'

end Bracketdown.Text
