import Bracketdown.Markdown.Block
import Bracketdown.Markdown.Html
import Bracketdown.Markdown.Options
import Bracketdown.Markdown.Table
import Bracketdown.Markdown.Target

/-!
# Blocks that hold no blocks

Each reader here is called behind the first line of a block and takes the lines that follow, as far
as they belong to it; it gives what it read and the lines that are left. A block stands in
containers (`Around`), and its lines have to belong to all of them. Only a paragraph may leave out
what the containers ask for, as long as the line starts nothing new (`interrupts`).
-/

namespace Bracketdown.Markdown

open Text (isLineBlank)

/-- What a block stands in. -/
structure Around where
  /-- The open containers, the outermost first. -/
  containers : List Container
  options : Options

namespace Around

/-- The place where the content of a line starts, if it belongs to all containers. -/
def enter (around : Around) (line : Line) : Option Cursor := enterAll around.containers line

/-- Blanks, as many as there are columns left of a tab. -/
def padding (place : Cursor) : List Char := List.replicate place.pad ' '

/-! ## Code and front matter -/

/-- Whether a place in a line closes a fenced block. What is left of a document without a line end
does so too if there is nothing but a few blanks. -/
def closesFence (fence : Fence) (line : Line) (place : Cursor) : Bool :=
  let (indent, behind) := place.take (4 - fence.indent)
  indent < 4 - fence.indent
    && (fence.isClosedBy behind.rest || (line.ending.isNone && behind.rest.isEmpty))

/-- The code behind a fence, up to the line that closes it. -/
def fencedCode (around : Around) (fence : Fence) : List Line → List Char × List Line
  | [] => ([], [])
  | line :: rest =>
    match around.enter line with
    | none => ([], line :: rest)
    | some place =>
      let (_, place) := place.take fence.indent
      if closesFence fence line place then ([], rest)
      else
        let (code, behind) := fencedCode around fence rest
        (padding place ++ place.rest ++ line.ending.toList ++ code, behind)

/-- The code of an indented block from its second line on. Blank lines count only if code follows;
those in `blanks` stand before these lines. -/
def indentedCode (around : Around) (blanks : List Char) : List Line → List Char × List Line
  | [] => ([], [])
  | line :: rest =>
    match (around.enter line).bind (Container.enterIndent 4) with
    | none => ([], line :: rest)
    | some place =>
      let text := padding place ++ place.rest ++ line.ending.toList
      if place.isBlank then indentedCode around (blanks ++ text) rest
      else
        let (code, behind) := indentedCode around [] rest
        (blanks ++ text ++ code, behind)

/-- The front matter behind its opening line. -/
def frontMatter (around : Around) (language : FrontMatter) : List Line → List Char × List Line
  | [] => ([], [])
  | line :: rest =>
    match around.enter line with
    | none => ([], line :: rest)
    | some place =>
      if closesFrontMatter language line.text then ([], rest)
      else
        let (text, behind) := frontMatter around language rest
        (padding place ++ place.rest ++ line.ending.toList ++ text, behind)

/-- Whether the lines behind an opening line make front matter: the first one is neither blank nor
closes it, and a later one closes it. -/
def isFrontMatter (language : FrontMatter) : List Line → Bool
  | [] => false
  | line :: rest =>
    !line.isBlank && !closesFrontMatter language line.text
      && rest.any fun line => closesFrontMatter language line.text

/-! ## HTML -/

/-- Whether a text holds another one. -/
def holds (mark s : List Char) : Bool := (Html.behindFirst? mark s).isSome

/-- The lines of a block of HTML from the given one on, less what the containers ask for. -/
def htmlFrom (around : Around) (stop : Html.BlockEnd) (pad : Nat) (first : List Char) :
    List Line → List (Nat × List Char) × List Line
  | [] => ([(pad, first)], [])
  | line :: rest =>
    -- The mark that ends the block may stand in its first line.
    let isLast := match stop with
      | .mark text => holds text first
      | .blank => false
    match if isLast then none else around.enter line with
    | none => ([(pad, first)], line :: rest)
    | some place =>
      if stop = .blank ∧ place.isBlank then ([(pad, first)], line :: rest)
      else
        let (block, behind) := htmlFrom around stop place.pad
          (place.rest ++ line.ending.toList) rest
        ((pad, first) :: block, behind)

/-! ## Paragraphs and tables -/

/-- Whether a list item that starts here may stand behind a paragraph without a blank line. In a
paragraph whose containers go on it must be no number but one, and not be empty. -/
def itemInterrupts (isInside inTable : Bool) (s : List Char) (next : List Line) : Bool :=
  match Marker.startsItem? s with
  | none => false
  | some (marker, content) =>
    !isInside || inTable
      || ((marker.number.isNone || marker.number = some 1)
        && !(content.all isLineBlank && next.head?.all Line.isBlank))

/-- Whether a line starts something that ends a paragraph or a table; `s` is the line less its
indentation, `next` are the lines behind it, and `isInside` says whether it belongs to all
containers. -/
def interruptsRow (around : Around) (isInside inTable : Bool) (s : List Char)
    (next : List Line) : Bool :=
  match s with
  | [] => true
  | c :: rest =>
    isRule s || (heading? s).isSome || (Fence.read? 0 s).isSome || c = '>'
      || itemInterrupts isInside inTable s next
      || (c = '<' && (Html.interrupting? rest).isSome)
      || (around.options.footnotes && (readFootnoteLabel? s).isSome)

/-- Whether a line is the header of a table that may stand behind a paragraph without a blank
line. -/
def tableInterrupts (around : Around) (s : List Char) (next : List Line) : Bool :=
  match Table.interruptingColumns? s, next.head?.bind around.enter with
  | some columns, some place => Table.delimiterColumns? place.rest = some columns
  | _, _ => false

/-- Whether a line starts something that ends a paragraph. -/
def interrupts (around : Around) (isInside : Bool) (s : List Char) (next : List Line) : Bool :=
  around.interruptsRow isInside false s next
    || (around.options.tables && around.tableInterrupts s next)

/-- What a line is to a paragraph in front of it. -/
inductive Follower where
  /-- Another line of it: what places the line in its containers, and its text. -/
  | line (margin : List Char) (text : List Char)
  /-- The underline that makes a heading of it. -/
  | underline (level : Level)
  /-- No part of it. -/
  | none

/-- What a line is to a paragraph in front of it. -/
def follower (around : Around) (line : Line) (next : List Line) : Follower :=
  let (left, place) := enterMost line.start around.containers
  let more :=
    if place.isBlank then Follower.none
    else .line (line.text.take (line.text.length - place.rest.length)) place.rest
  match place.take 4 with
  | (4, _) => more
  | (_, behind) =>
    match if left = 0 then underline? behind.rest else none with
    | some level => .underline level
    | none => if around.interrupts (left = 0) behind.rest next then .none else more

/-- The lines that follow on the first line of a paragraph, each behind the line end in front of it,
whether they are underlined, and the lines that are left. -/
def paragraphRest (around : Around) (ending : Option Char) :
    List Line → Passage × Option Level × List Line
  | [] => ({ text := [] }, none, [])
  | line :: rest =>
    match around.follower line rest with
    | .none => ({ text := [] }, none, line :: rest)
    | .underline level => ({ text := [] }, some level, rest)
    | .line margin text =>
      let (more, level, behind) := around.paragraphRest line.ending rest
      let passage : Passage :=
        { more with text := ending.toList ++ text ++ more.text, margins := margin :: more.margins }
      (passage, level, behind)

/-- The rows of a table, and the lines that are left. -/
def tableRows (around : Around) : List Line → List (List (List Char)) × List Line
  | [] => ([], [])
  | line :: rest =>
    match around.enter line with
    | none => ([], line :: rest)
    | some place =>
      let row := Table.cells place.trimmed
      if around.interruptsRow true true place.trimmed rest || row.isEmpty then ([], line :: rest)
      else
        let (rows, behind) := around.tableRows rest
        (row :: rows, behind)

/-- Whether a line ends with a backslash that breaks the line. -/
def endsWithBreak (s : List Char) : Bool := (s.reverse.takeWhile (· = '\\')).length % 2 = 1

/-- The columns of the table that a line starts as its header, and the lines behind the delimiter
line. -/
def tableHead? (around : Around) (s : List Char) (next : List Line) : Option (Nat × List Line) :=
  match next with
  | [] => none
  | line :: rest => do
    guard (around.options.tables && !endsWithBreak s)
    let columns ← Table.headerColumns? s
    let place ← around.enter line
    guard (Table.delimiterColumns? place.rest = some columns)
    return (columns, rest)

/-- The table or paragraph whose first line is `s`, and the lines that are left. -/
def paragraph (around : Around) (task : Option Bool) (s : List Char) (ending : Option Char)
    (next : List Line) : Block × List Line :=
  match around.tableHead? s next with
  | some (columns, next) =>
    let (rows, behind) := around.tableRows next
    (.table (Table.fit columns (Table.cells s)) (rows.map (Table.fit columns)), behind)
  | none =>
    let (more, level, behind) := around.paragraphRest ending next
    let content : Passage := { more with text := s ++ more.text }
    match level with
    | some level => (.heading task level content, behind)
    | none => (.paragraph task content, behind)

/-! ## Definitions -/

/-- The lines behind the first line of a definition that may belong to it, each behind the line end
in front of it. -/
def definitionRest (around : Around) (ending : Option Char) : List Line → List Char
  | [] => []
  | line :: rest =>
    match around.follower line rest with
    | .line _ text =>
      let (indent, behind) := (enterMost line.start around.containers).2.take 4
      if indent < 4 && (underline? behind.rest).isSome then []
      else ending.toList ++ text ++ around.definitionRest line.ending rest
    | _ => []

/-- What is left of the lines behind a run of definitions. -/
inductive AfterDefinitions where
  /-- A line that belongs to the paragraph of the definitions but is no definition. -/
  | paragraph (first : List Char) (ending : Option Char) (rest : List Line)
  /-- Something else. -/
  | lines (rest : List Line)

/-- Reads a definition and the lines behind it: the definition, and the number of lines it takes
behind its first one. -/
def definition? (around : Around) (s : List Char) (ending : Option Char) (next : List Line) :
    Option (Definition × Nat) :=
  let text := s ++ around.definitionRest ending next
  (Definition.read? text).map fun (definition, behind) =>
    (definition, (text.take (text.length - behind.length)).countP Label.isLineEnd)

/-- Whether a line behind a definition belongs to the paragraph that the definition stands in. -/
def continuesDefinition (around : Around) (line : Line) (rest : List Line) : Bool :=
  let (left, place) := enterMost line.start around.containers
  let (indent, content) := place.take 4
  !place.isBlank && !(indent < 4 && around.interrupts (left = 0) content.rest rest)

/-- Reads definitions from a line on, which share a paragraph with each other. -/
def definitions (around : Around) (s : List Char) (ending : Option Char) (next : List Line) :
    Definitions × AfterDefinitions :=
  match around.definition? s ending next with
  | none => ([], .paragraph s ending next)
  | some (definition, taken) =>
    match _h : next.drop taken with
    | [] => ([definition], .lines [])
    | line :: rest =>
      if around.continuesDefinition line rest then
        let content := (enterMost line.start around.containers).2.trimmed
        let (more, after) := around.definitions content line.ending rest
        (definition :: more, after)
      else ([definition], .lines (line :: rest))
termination_by next.length
decreasing_by
  have : (next.drop taken).length = rest.length + 1 := by simp [_h]
  simp only [List.length_drop] at this
  omega

end Around

end Bracketdown.Markdown
