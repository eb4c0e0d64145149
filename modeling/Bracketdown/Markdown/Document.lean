import Bracketdown.Link.Autolink
import Bracketdown.Event.Tree
import Bracketdown.Markdown.Inline
import Bracketdown.Markdown.Outline
import Bracketdown.Text.Utf8

/-!
# Reading Markdown

A document is read in two steps. The first finds its blocks and the definitions in it
(`Outline.ofLines`), the second reads the text of the blocks, which may refer to definitions
anywhere (`Block.events`). What comes out is a list of events (`events`), which is read as a tree
and in which addresses become links, if that is asked for (`parse`).
-/

namespace Bracketdown.Markdown

/-- Events between the start and the end of a tag. -/
def tagged (tag : Tag) (events : List Event) : List Event :=
  .start tag :: events ++ [.stop tag.kind]

/-- The events of a text without markup. -/
def textEvents (text : List Char) : List Event :=
  if text.isEmpty then [] else [.text (String.ofList text)]

/-- The events of the box of a task. -/
def taskEvents (task : Option Bool) : List Event := task.toList.map .taskMarker

/-- The events of the cells of a row. -/
def cellEvents (notes : Notes) (row : List (List Char)) : List Event :=
  row.flatMap fun cell => tagged .tableCell ((Passage.ofLine cell false).events notes)

/-- The tag of a container. -/
def Container.tag : Container → Tag
  | .quote => .blockQuote
  | .list _ start _ => .list start
  | .item _ => .item
  | .footnote label => .footnoteDefinition (String.ofList label)

/-- Whether paragraphs stand without tags in a container, which itself stands where they do so or
not: in the items of a tight list. -/
def Container.isTight (isTightAround : Bool) : Container → Bool
  | .list _ _ isTight => isTight
  | .item _ => isTightAround
  | _ => false

mutual

/-- The events of a block; `isTight` says whether paragraphs stand without tags here. -/
def Block.events (notes : Notes) (isTight : Bool) : Block → List Event
  | .holding container blocks =>
    tagged container.tag (Block.allEvents notes (container.isTight isTight) blocks)
  | .paragraph task content =>
    let events := taskEvents task ++ content.events notes
    if isTight then events else tagged .paragraph events
  | .heading task level content => tagged (.heading level) (taskEvents task ++ content.events notes)
  | .box checked => [.taskMarker checked]
  | .rule => [.rule]
  | .code info content => tagged (.codeBlock (info.map String.ofList)) (textEvents content)
  | .html lines =>
    tagged .htmlBlock <| lines.flatMap fun (indent, line) =>
      textEvents (List.replicate indent ' ') ++ [.html (String.ofList line)]
  | .frontMatter language content => tagged (.metadata language) (textEvents content)
  | .table header rows =>
    tagged .table <| tagged .tableHead (cellEvents notes header)
      ++ rows.flatMap fun row => tagged .tableRow (cellEvents notes row)

/-- The events of blocks. -/
def Block.allEvents (notes : Notes) (isTight : Bool) : List Block → List Event
  | [] => []
  | block :: blocks => block.events notes isTight ++ Block.allEvents notes isTight blocks

end

/-- The events of a document. -/
def events (options : Options) (source : List Char) : List Event :=
  let outline := Outline.ofLines options (lines source)
  Block.allEvents ⟨options, outline.definitions, outline.footnotes⟩ false outline.blocks.reverse

/-- The tree that events describe. -/
def treeOf (options : Options) (events : List Event) : Node :=
  let tree := Node.root (Node.ofEvents events)
  if options.autolinks then tree.linkLiterals else tree

/-- The tree of a document. -/
def parse (options : Options) (source : String) : Node :=
  treeOf options (events options source.toList)

/-- A document that is not encoded as it should be. -/
structure EncodingError where
  fault : Utf8.Fault
  deriving Repr

/-- The message of an encoding error. -/
def EncodingError.message (error : EncodingError) : String :=
  "input is not valid UTF-8: " ++ error.fault.message

/-- The tree of a document that is given as bytes. -/
def parseBytes (options : Options) (bytes : List UInt8) : Except EncodingError Node :=
  match Utf8.decode bytes with
  | .ok source => .ok (treeOf options (events options source))
  | .error fault => .error ⟨fault⟩

end Bracketdown.Markdown
