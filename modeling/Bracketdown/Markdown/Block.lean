import Bracketdown.Markdown.Container

/-!
# Blocks

The first reading of a document finds its blocks and leaves the text in them as it is. A `Passage`
is such text: lines put together, and what stood in front of each line to place it inside its
containers.
-/

namespace Bracketdown.Markdown

/-- The text of a block. -/
structure Passage where
  /-- The lines with their line ends, less what places them in their containers. -/
  text : List Char
  /-- What places each line but the first. -/
  margins : List (List Char) := []
  /-- Whether blanks behind text count at its end. -/
  keepsBlanks : Bool := false
  deriving Repr, DecidableEq

/-- A text on one line. -/
def Passage.ofLine (text : List Char) (keepsBlanks : Bool) : Passage := ⟨text, [], keepsBlanks⟩

/-- A block of a document. -/
inductive Block where
  /-- A container with its blocks. -/
  | holding (container : Container) (blocks : List Block)
  /-- A paragraph; in a task item the first one starts with the box. -/
  | paragraph (task : Option Bool) (content : Passage)
  | heading (task : Option Bool) (level : Level) (content : Passage)
  /-- The box of a task item that has no text. -/
  | box (checked : Bool)
  | rule
  /-- A block of code; `info` is the text behind the opening fence, if there is one. -/
  | code (info : Option (List Char)) (content : List Char)
  /-- A block of HTML: its lines, each with the columns of blanks in front of it. -/
  | html (lines : List (Nat × List Char))
  | frontMatter (language : FrontMatter) (content : List Char)
  | table (header : List (List Char)) (rows : List (List (List Char)))
  deriving Repr

end Bracketdown.Markdown
