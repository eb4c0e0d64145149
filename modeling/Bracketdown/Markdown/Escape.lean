import Bracketdown.Markdown.Entity
import Bracketdown.Text.Punctuation

/-!
# Escapes

A backslash takes the meaning from the ASCII punctuation behind it; in front of anything else it is
a character like any other. `unescape` resolves the escapes and character references of a text that
has no other markup: an address, or the text behind an opening fence.
-/

namespace Bracketdown.Markdown

open Text (isAsciiPunctuation)

/-- A text with its escapes and character references resolved. The fuel is at least the number of
characters. -/
def unescapeWith : Nat → List Char → List Char
  | 0, s => s
  | _, [] => []
  | fuel + 1, '\\' :: c :: s =>
    if isAsciiPunctuation c then c :: unescapeWith fuel s else '\\' :: unescapeWith fuel (c :: s)
  | fuel + 1, '&' :: s =>
    match Entity.reference? s with
    | some (text, rest) => text ++ unescapeWith fuel rest
    | none => '&' :: unescapeWith fuel s
  | fuel + 1, c :: s => c :: unescapeWith fuel s

/-- A text with its escapes and character references resolved. -/
def unescape (s : List Char) : List Char := unescapeWith s.length s

end Bracketdown.Markdown
