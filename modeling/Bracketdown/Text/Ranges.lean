/-!
# Sets of code points

A set of code points is written as the increasing list of the places where membership changes: the
first number is the first code point inside, the second the first one outside again, and so on.
-/

namespace Bracketdown.Text

/-- Whether a code point lies in the set with the given places of change. -/
def inRanges : List Nat → Nat → Bool
  | first :: past :: rest, n =>
    if n < first then false else if n < past then true else inRanges rest n
  | [first], n => first ≤ n
  | [], _ => false

end Bracketdown.Text
