import Bracketdown.Event.Basic
import Bracketdown.Text.Blank

/-!
# Lines that are marks

Some lines say by their form alone what they are: thematic breaks, headings, the underlines that
make a heading of the paragraph above, and the fences around code. Each is recognised here from the
text of the line, less its indentation.
-/

namespace Bracketdown.Markdown

open Text (isAsciiBlank isLineBlank)

/-- Whether a line is a thematic break: three or more of one sign, and blanks. -/
def isRule : List Char → Bool
  | [] => false
  | c :: s =>
    (c = '*' || c = '-' || c = '_') && s.all (fun d => d = c || d = ' ' || d = '\t')
      && 2 ≤ s.count c

/-- A text without the characters at its end that a test finds. -/
def dropEnd (test : Char → Bool) (s : List Char) : List Char := (s.reverse.dropWhile test).reverse

/-- The content of a heading without the blanks and the closing signs at its end. The signs have to
stand apart from the content. -/
def trimHeading (s : List Char) : List Char :=
  let content := dropEnd (· = ' ') s
  match content.reverse.dropWhile (· = '#') with
  | [] => []
  | ' ' :: before => (before.dropWhile (· = ' ')).reverse
  | _ => content

/-- The level and the content of a heading that is written with signs in front. -/
def heading? (s : List Char) : Option (Level × List Char) :=
  let signs := s.takeWhile (· = '#')
  match Level.ofNat? signs.length, s.drop signs.length with
  | some level, [] => some (level, [])
  | some level, c :: rest =>
    if isAsciiBlank c then some (level, trimHeading ((c :: rest).dropWhile isLineBlank)) else none
  | none, _ => none

/-- The level that a line gives to the paragraph above, if it underlines it. -/
def underline? (s : List Char) : Option Level :=
  let of (sign : Char) (level : Level) : Option Level :=
    if (s.dropWhile (· = sign)).all isLineBlank then some level else none
  match s with
  | '=' :: _ => of '=' .one
  | '-' :: _ => of '-' .two
  | _ => none

/-- The fence that opens a block of code. -/
structure Fence where
  sign : Char
  length : Nat
  /-- The columns of blanks in front. -/
  indent : Nat
  deriving Repr, DecidableEq

/-- The fence that a line is, and the text behind it. A fence of backticks has none behind it. -/
def Fence.read? (indent : Nat) : List Char → Option (Fence × List Char)
  | [] => none
  | sign :: s =>
    let length := 1 + (s.takeWhile (· = sign)).length
    let info := s.dropWhile (· = sign)
    if (sign = '~' ∨ sign = '\x60' ∧ !info.contains '\x60') ∧ 3 ≤ length then
      some (⟨sign, length, indent⟩, info)
    else none

/-- Whether a line closes the block that a fence opens: it is at least as long, and only blanks
follow. -/
def Fence.isClosedBy (fence : Fence) (s : List Char) : Bool :=
  fence.length ≤ (s.takeWhile (· = fence.sign)).length
    && (s.dropWhile (· = fence.sign)).all (· = ' ')

/-- The language of the front matter that a line may open. -/
def frontMatter? (s : List Char) : Option FrontMatter :=
  match s with
  | '-' :: '-' :: '-' :: rest => if rest.all isLineBlank then some .yaml else none
  | '+' :: '+' :: '+' :: rest => if rest.all isLineBlank then some .toml else none
  | _ => none

/-- Whether a line closes front matter. -/
def closesFrontMatter (language : FrontMatter) (s : List Char) : Bool :=
  let signs := match language with
    | .yaml => ["---".toList, "...".toList]
    | .toml => ["+++".toList]
  signs.contains (dropEnd (· = ' ') s)

end Bracketdown.Markdown
