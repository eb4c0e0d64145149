import Bracketdown.Markdown.Leaf

/-!
# The blocks of a document

An `Outline` is a document of which some lines have been read: the blocks found so far, and the
containers that are still open. `Outline.read` takes one line, and the lines that belong to the
block it starts: containers that the line does not belong to are closed, those it opens are opened,
and what is left of the line is a blank line or the start of a block that holds no blocks.
`Outline.ofLines` reads a whole document.

Blank lines have an effect on what comes later. Behind an item without any text on its first line a
blank line ends the item, so such an item is remembered (`isEmptyItem`); and a blank line between
the items of a list, or between the blocks of an item, makes the list loose, so it is remembered too
(`isBehindBlank`).
-/

namespace Bracketdown.Markdown

/-- An open container with the blocks it holds so far, the last one first. -/
structure Frame where
  container : Container
  blocks : List Block := []

/-- A document of which some lines have been read. -/
structure Outline where
  /-- The open containers, the innermost first. -/
  frames : List Frame := []
  /-- The finished blocks outside of all containers, the last one first. -/
  blocks : List Block := []
  definitions : Definitions := []
  /-- What the labels of the footnotes that are defined are compared by. -/
  footnotes : List (List Char) := []
  /-- Whether an item was opened by the last line that was not blank, without any text in it. -/
  isEmptyItem : Bool := false
  /-- Whether a blank line was read that no block has followed on yet. -/
  isBehindBlank : Bool := false
  /-- The box of a task item that waits for the paragraph it belongs to. -/
  task : Option Bool := none

namespace Outline

/-- The open containers, the outermost first. -/
def containers (outline : Outline) : List Container :=
  (outline.frames.map (·.container)).reverse

/-- Adds a block to the innermost container. -/
def add (block : Block) (outline : Outline) : Outline :=
  match outline.frames with
  | frame :: outer =>
    { outline with frames := { frame with blocks := block :: frame.blocks } :: outer }
  | [] => { outline with blocks := block :: outline.blocks }

/-- Opens a container. -/
def enter (container : Container) (outline : Outline) : Outline :=
  { outline with frames := { container } :: outline.frames }

/-- Closes the innermost container. -/
def close (outline : Outline) : Outline :=
  match outline.frames with
  | [] => outline
  | frame :: outer =>
    let isEmptyItem : Bool := match frame.container with
      | .list _ _ true => false
      | _ => outline.isEmptyItem
    add (.holding frame.container frame.blocks.reverse)
      { outline with frames := outer, isEmptyItem := isEmptyItem }

/-- Closes so many containers, the innermost first. -/
def closeMany : Nat → Outline → Outline
  | 0, outline => outline
  | n + 1, outline => closeMany n outline.close

/-- The innermost container. -/
def innermost? (outline : Outline) : Option Container := outline.frames.head?.map (·.container)

/-- A frame as loose, if it is one of a list. -/
def loosen (frame : Frame) : Frame :=
  match frame.container with
  | .list sign start _ => { frame with container := .list sign start false }
  | _ => frame

/-- Closes an item that a blank line has shown to be empty. -/
def finishEmptyItem (outline : Outline) : Outline :=
  let finished := match outline.innermost? with
    | some (.item _) =>
      if outline.isEmptyItem && outline.isBehindBlank then outline.close else outline
    | _ => outline
  { finished with isEmptyItem := false }

/-- Closes a list that no further item follows in. What follows behind a blank line makes the list
around its item loose. -/
def finishList (outline : Outline) : Outline :=
  let outline := outline.finishEmptyItem
  let outline := match outline.innermost? with
    | some (.list _ _ _) => outline.close
    | _ => outline
  match outline.isBehindBlank, outline.frames with
  | true, inner :: frame :: outer =>
    { outline with frames := inner :: loosen frame :: outer, isBehindBlank := false }
  | _, _ => { outline with isBehindBlank := false }

/-- Opens a list. -/
def enterList (marker : Marker) (outline : Outline) : Outline :=
  outline.finishList.enter (.list marker.sign (marker.number.map UInt64.ofNat) true)

/-- Opens an item, in a list of its own unless one with the same sign is open. -/
def enterItem (marker : Marker) (indent : Nat) (outline : Outline) : Outline :=
  let outline := outline.finishEmptyItem
  let outline := match outline.frames with
    | ⟨.list sign start isTight, items⟩ :: outer =>
      if sign = marker.sign then
        -- A blank line between two items makes their list loose.
        let isTight := isTight && !outline.isBehindBlank
        { outline with frames := ⟨.list sign start isTight, items⟩ :: outer }
      else outline.enterList marker
    | _ => outline.enterList marker
  { outline with isBehindBlank := false }.enter (.item indent)

/-- Opens a footnote; one cannot stand directly in another. -/
def enterFootnote (label : List Char) (outline : Outline) : Outline :=
  let outline := outline.finishList
  let outline := match outline.innermost? with
    | some (.footnote _) => outline.close
    | _ => outline
  { outline with footnotes := Label.key label :: outline.footnotes }.enter (.footnote label)

/-- Takes note of a blank line. An item without text does not go on behind it, whatever its
indentation. -/
def blankLine (outline : Outline) : Outline :=
  match outline.frames with
  -- The line was marked as one of the quote, so it parts nothing outside of it.
  | ⟨.quote, _⟩ :: _ => outline
  | ⟨.item indent, blocks⟩ :: outer =>
    let indent := if outline.isEmptyItem then 0 else indent
    { outline with frames := ⟨.item indent, blocks⟩ :: outer, isBehindBlank := true }
  | _ => { outline with isBehindBlank := true }

/-- What stands in a line that was walked to a place. -/
inductive Opening where
  | quote (behind : Cursor)
  | item (marker : Marker) (indent : Nat) (behind : Cursor)
  | footnote (label : List Char) (behind : Cursor)

/-- The mark of a container at a place in a line. -/
def opening? (options : Options) (place : Cursor) : Option Opening :=
  match place.take 4 with
  | (4, _) => none
  | (outer, inside) =>
    match if options.footnotes then readFootnoteLabel? inside.rest else none with
    | some (label, rest) =>
      some (.footnote label ⟨rest.dropWhile Text.isLineBlank, 0, 0⟩)
    | none =>
      match Marker.read? outer inside with
      | some (marker, indent, behind) => some (.item marker indent behind)
      | none => (Container.enterQuote place).map .quote

/-- Opens the containers whose marks stand from a place on: the outline, and the place behind the
marks, unless nothing is left of the line. Each mark takes a character, so the number of characters
is fuel enough. -/
def openWith (options : Options) : Nat → Outline → Cursor → Outline × Option Cursor
  | 0, outline, place => (outline, some place)
  | fuel + 1, outline, place =>
    match opening? options place with
    | none => (outline, some place)
    | some (.quote behind) => openWith options fuel (outline.finishList.enter .quote) behind
    | some (.footnote label behind) => openWith options fuel (outline.enterFootnote label) behind
    | some (.item marker indent behind) =>
      let outline := outline.enterItem marker indent
      if behind.isBlank then ({ outline with isEmptyItem := true }, none)
      else
        match if options.taskLists then readTask? behind else none with
        | none => openWith options fuel outline behind
        | some (checked, behind) =>
          if behind.isBlank then ({ outline.add (.box checked) with isEmptyItem := true }, none)
          else openWith options fuel { outline with task := some checked } behind

/-- A block that was read, with the lines that are left. -/
abbrev Found := Block × List Line

/-- The indented code that starts behind four columns of blanks. -/
def indented (around : Around) (inside : Cursor) (ending : Option Char) (next : List Line) :
    Found :=
  let (code, rest) := around.indentedCode [] next
  (.code none (Around.padding inside ++ inside.rest ++ ending.toList ++ code), rest)

/-- The front matter that a line opens. -/
def frontMatter? (around : Around) (s : List Char) (next : List Line) : Option Found := do
  let language ← Markdown.frontMatter? s
  guard (Around.isFrontMatter language next)
  let (text, rest) := around.frontMatter language next
  return (.frontMatter language text, rest)

/-- The block of HTML that a line starts. -/
def html? (around : Around) (indent : Nat) (s : List Char) (ending : Option Char)
    (next : List Line) : Option Found :=
  match s with
  | '<' :: rest => (Html.block? rest).map fun stop =>
    let (lines, rest) := around.htmlFrom stop indent (s ++ ending.toList) next
    (.html lines, rest)
  | _ => none

/-- The thematic break or the heading that a line is. -/
def single? (s : List Char) : Option Block :=
  if isRule s then some .rule
  else (heading? s).map fun (level, content) => .heading none level (.ofLine content true)

/-- The fenced code that a line opens. -/
def fenced? (around : Around) (indent : Nat) (s : List Char) (next : List Line) : Option Found :=
  (Fence.read? indent s).map fun (fence, info) =>
    let (code, rest) := around.fencedCode fence next
    (.code (some (unescape (Label.trim info))) code, rest)

/-- The block that starts at a place and holds no blocks, with the lines that are left; none at the
start of a definition, a paragraph or a table. -/
def leaf? (around : Around) (place : Cursor) (ending : Option Char) (next : List Line) :
    Option Found :=
  let (indent, inside) := place.take 4
  let s := inside.rest
  if indent = 4 then some (indented around inside ending next)
  else
    (if around.options.frontMatter && indent = 0 then frontMatter? around s next else none)
      <|> html? around indent s ending next
      <|> (single? s).map (·, next)
      <|> fenced? around indent s next

/-- Reads what a line holds behind the marks of containers, and the lines that belong to it. -/
def readContent (options : Options) (outline : Outline) (place : Cursor) (ending : Option Char)
    (next : List Line) : Outline × List Line :=
  if place.isBlank then (outline.blankLine, next)
  else
    let outline := outline.finishList
    let around : Around := ⟨outline.containers, options⟩
    match leaf? around place ending next with
    | some (block, rest) => (outline.add block, rest)
    | none =>
      let (definitions, after) := around.definitions (place.take 4).2.rest ending next
      let outline := { outline with definitions := outline.definitions ++ definitions }
      match after with
      | .lines rest => (outline, rest)
      | .paragraph first ending rest =>
        let (block, rest) := around.paragraph outline.task first ending rest
        ({ outline with task := none }.add block, rest)

/-- Reads a line and the lines that belong to the block it starts. -/
def read (options : Options) (outline : Outline) (line : Line) (next : List Line) :
    Outline × List Line :=
  let (left, place) := enterMost line.start outline.containers
  match openWith options line.text.length (outline.closeMany left) place with
  | (outline, some place) => outline.readContent options place line.ending next
  | (outline, none) => (outline, next)

/-- Reads lines one after another. Each step takes one at least, so their number is fuel enough. -/
def readAll (options : Options) : Nat → Outline → List Line → Outline
  | fuel + 1, outline, line :: next =>
    let (outline, rest) := outline.read options line next
    readAll options fuel outline rest
  | _, outline, _ => outline

/-- Closes all that is open. -/
def finish (outline : Outline) : Outline := outline.closeMany outline.frames.length

/-- The outline of a document. -/
def ofLines (options : Options) (lines : List Line) : Outline :=
  (readAll options lines.length {} lines).finish

end Outline

end Bracketdown.Markdown
