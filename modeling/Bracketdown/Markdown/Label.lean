import Bracketdown.Text.Blank
import Bracketdown.Text.Fold

/-!
# Labels

A label stands between brackets and names the target of a link or a footnote. Labels are compared
without regard to case and to the number and kind of blanks between words. A label holds no bracket
that is not escaped, no blank line and not only blanks.
-/

namespace Bracketdown.Markdown.Label

open Text (isAsciiBlank)

/-- How much a character adds to the weight of a label, which is bounded: only characters outside
ASCII count, by the bytes that encode them, and so do blanks and escapes. -/
def weight (c : Char) : Nat := if c.toNat < 0x80 then 0 else c.utf8Size

/-- The greatest weight of a label. -/
def maxWeight : Nat := 999

/-- Whether a character ends a line. -/
def isLineEnd (c : Char) : Bool := c = '\n' || c = '\r'

/-- Reads a label of weight at most `spare` up to its closing bracket: the label with each run of
blanks as one, and the text behind the bracket. Unless `multiline` it has to stand on one line. The
fuel is more than the number of characters. -/
def readWith (multiline : Bool) : Nat → Nat → List Char → Option (List Char × List Char)
  | 0, _, _ => none
  | _, _, [] => none
  | _, _, '[' :: _ => none
  | _, _, ']' :: rest => some ([], rest)
  | _, _, ['\\'] => none
  | fuel + 1, spare, '\\' :: c :: s =>
    if spare < 2 then none
    else (readWith multiline fuel (spare - 2) s).map fun (label, rest) => ('\\' :: c :: label, rest)
  | fuel + 1, spare, c :: s =>
    if isAsciiBlank c then
      let run := c :: s.takeWhile isAsciiBlank
      let lineEnds := run.countP isLineEnd
      if spare < run.length || 1 < lineEnds || (0 < lineEnds && !multiline) then none
      else
        (readWith multiline fuel (spare - run.length) (s.dropWhile isAsciiBlank)).map
          fun (label, rest) => (' ' :: label, rest)
    else if spare < weight c then none
    else (readWith multiline fuel (spare - weight c) s).map fun (label, rest) => (c :: label, rest)

/-- A text without the blanks at its ends. -/
def trim (s : List Char) : List Char :=
  ((s.dropWhile isAsciiBlank).reverse.dropWhile isAsciiBlank).reverse

/-- Reads a label behind its opening bracket. -/
def read? (multiline : Bool) (s : List Char) : Option (List Char × List Char) := do
  let (label, rest) ← readWith multiline (s.length + 1) maxWeight s
  let label := trim label
  if label.isEmpty then none else some (label, rest)

/-- What labels are compared by. -/
def key (label : List Char) : List Char := Text.fold label

/-- Reads the label of a footnote, up to its closing bracket, behind its opening one. -/
def footnote? : List Char → Option (List Char × List Char)
  | '^' :: ']' :: _ => none
  | '^' :: s => read? false s
  | _ => none

end Bracketdown.Markdown.Label
