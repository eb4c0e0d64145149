import Bracketdown.Markdown.Line
import Bracketdown.Markdown.Mark
import Bracketdown.Text.Parts

/-!
# Rows of tables

A table is a header line, a delimiter line of hyphens, and rows. Pipes part the cells; a pipe behind
a backslash is text. The header and the delimiter line must agree on the number of columns, and
every row is brought to that number (`fit`).
-/

namespace Bracketdown.Markdown.Table

open Text (isLineBlank)

/-- The parts of a line between the pipes that have no backslash in front of them. `before` is the
character before the line. -/
def cut (before : Char) : List Char → List (List Char)
  | [] => [[]]
  | c :: s =>
    if c = '|' ∧ before ≠ '\\' then [] :: cut c s
    else match cut c s with
      | part :: parts => (c :: part) :: parts
      | [] => [[c]]

/-- The columns that the parts of a header line stand for. In front of the first pipe and behind the
last one blanks are no column. -/
def columns (parts : List (List Char)) : Nat :=
  let isEdge (part : Option (List Char)) : Nat :=
    if part.any fun part => part.all isLineBlank then 1 else 0
  parts.length - isEdge parts.head? - isEdge parts.getLast?

/-- The columns of a header line; none without a pipe. -/
def headerColumns? (s : List Char) : Option Nat :=
  let parts := cut ' ' s
  if parts.length < 2 then none else some (columns parts)

/-- The columns of a header line that stands right behind a paragraph and has to start with a
pipe. -/
def interruptingColumns? : List Char → Option Nat
  | '|' :: s => headerColumns? ('|' :: s)
  | _ => none

/-- The columns of a delimiter line: it has a pipe, and a hyphen in each column a pipe closes. -/
def delimiterColumns? (s : List Char) : Option Nat :=
  let (indent, line) := (Cursor.take 4 ⟨s, 0, 0⟩)
  let s := line.rest
  let body := match s with
    | '|' :: rest => rest
    | _ => s
  let parts := Text.parts (· = '|') body
  let isOpen := (parts.getLast?).any fun part => part.any (· ≠ ' ')
  if indent < 4 && s.contains '|' && s.contains '-'
      && s.all (fun c => c = ' ' || c = ':' || c = '-' || c = '|')
      && parts.dropLast.all (·.contains '-') then
    some (parts.length - 1 + if isOpen then 1 else 0)
  else none

/-- The text of a cell without the backslashes in front of pipes. -/
def unescapePipes : List Char → List Char
  | '\\' :: '|' :: s => '|' :: unescapePipes s
  | c :: s => c :: unescapePipes s
  | [] => []

/-- The text of a cell. -/
def cell (part : List Char) : List Char :=
  unescapePipes (dropEnd isLineBlank (part.dropWhile isLineBlank))

/-- The cells of a row. -/
def cells (s : List Char) : List (List Char) :=
  let body := match s with
    | '|' :: rest => rest
    | _ => s
  let parts := cut ' ' body
  let isClosed := parts.getLast?.any fun part => part.all isLineBlank
  (if isClosed then parts.dropLast else parts).map cell

/-- A row with as many cells as there are columns: cells that are too many are left out, and missing
ones are empty. -/
def fit (width : Nat) (row : List (List Char)) : List (List Char) :=
  row.take width ++ List.replicate (width - row.length) []

end Bracketdown.Markdown.Table
