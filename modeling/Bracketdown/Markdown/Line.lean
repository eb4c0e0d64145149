import Bracketdown.Text.Blank

/-!
# Lines

A document is read line by line. A line ends with a line feed, a carriage return or both; the two
together count as a line feed. `lines` cuts a document into lines.

A `Cursor` walks along the blanks at the start of a line, where columns count and not characters: a
tab reaches to the next column that is a multiple of four, and only a part of it may be used up.
-/

namespace Bracketdown.Markdown

open Text (isLineBlank)

/-- A line of a document. -/
structure Line where
  text : List Char
  /-- The line end; there is none at the end of the document. -/
  ending : Option Char
  deriving Repr, DecidableEq

namespace Line

/-- Whether a line holds nothing but blanks. -/
def isBlank (line : Line) : Bool := line.text.all isLineBlank

end Line

/-- A document with each carriage return in front of a line feed left out. -/
def uniformEnds : List Char → List Char
  | '\r' :: '\n' :: s => '\n' :: uniformEnds s
  | c :: s => c :: uniformEnds s
  | [] => []

/-- The lines of a document with uniform line ends. -/
def linesOf : List Char → List Line
  | [] => []
  | c :: s =>
    if c = '\n' ∨ c = '\r' then ⟨[], some c⟩ :: linesOf s
    else match linesOf s with
      | line :: rest => ⟨c :: line.text, line.ending⟩ :: rest
      | [] => [⟨[c], none⟩]

/-- The lines of a document. -/
def lines (s : List Char) : List Line := linesOf (uniformEnds s)

/-- A place near the start of a line. -/
structure Cursor where
  /-- The text from here on. -/
  rest : List Char
  /-- The column, counted from the last tab. -/
  column : Nat := 0
  /-- The columns that are left of a tab before this place. -/
  pad : Nat := 0
  deriving Repr, DecidableEq

namespace Cursor

/-- Takes up to `n` columns of blanks from a text: how many columns there were, and the place behind
them. -/
def takeFrom : Nat → Nat → List Char → Nat × Cursor
  | n + 1, column, ' ' :: s =>
    let (taken, behind) := takeFrom n (column + 1) s
    (taken + 1, behind)
  | n + 1, column, '\t' :: s =>
    let width := 4 - column % 4
    if n + 1 ≤ width then (n + 1, ⟨s, 0, width - (n + 1)⟩)
    else
      let (taken, behind) := takeFrom (n + 1 - width) 0 s
      (taken + width, behind)
  | _, column, s => (0, ⟨s, column, 0⟩)

/-- Takes up to `n` columns of blanks: how many there were, and the place behind them. -/
def take (n : Nat) (place : Cursor) : Nat × Cursor :=
  if n ≤ place.pad then (n, { place with pad := place.pad - n })
  else
    let (taken, behind) := takeFrom (n - place.pad) place.column place.rest
    (taken + place.pad, behind)

/-- Takes exactly `n` columns of blanks, or none if there are not so many. -/
def take? (n : Nat) (place : Cursor) : Option Cursor :=
  let (taken, behind) := place.take n
  if taken = n then some behind else none

/-- The place behind a character that stands here. -/
def skip? (c : Char) (place : Cursor) : Option Cursor :=
  match place.rest with
  | d :: s => if c = d then some ⟨s, place.column + 1, place.pad⟩ else none
  | [] => none

/-- The text from here on without blanks at its start. -/
def trimmed (place : Cursor) : List Char := place.rest.dropWhile isLineBlank

/-- Whether nothing but blanks stands from here on. -/
def isBlank (place : Cursor) : Bool := place.rest.all isLineBlank

end Cursor

/-- The start of a line. -/
def Line.start (line : Line) : Cursor := ⟨line.text, 0, 0⟩

end Bracketdown.Markdown
