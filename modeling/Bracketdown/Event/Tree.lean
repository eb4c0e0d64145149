import Bracketdown.Event.Basic
import Bracketdown.Node.Content
import Bracketdown.Text.Blank

/-!
# From events to a tree

`Node.ofEvents` reads a list of events as the children of a document. A start is matched with the
end that closes it (`endIndex`): the first end of its kind with no more starts than ends of that
kind before it. The events between become the content of the node, so every event belongs to exactly
one node, the innermost one around it. The list need not be well nested: stray ends are passed over,
and a start that nothing closes takes the rest of the list except the last event.

Three rules shape what is between:

* texts that follow one another are one text (`joinTexts`), and a soft break is the text of a line
  end;
* the content of a list item is parted into runs of inline content, each of which becomes a
  paragraph, and the blocks between the runs (`wrapRuns`);
* code blocks, front matter, HTML blocks and the descriptions of images are flattened to one string.
-/

namespace Bracketdown

namespace Event

/-- Whether an event starts a tag of a kind. -/
def opens (kind : TagKind) : Event → Bool
  | .start tag => tag.kind = kind
  | _ => false

/-- Whether an event ends the innermost tag of a kind. -/
def closes (kind : TagKind) : Event → Bool
  | .stop k => k = kind
  | _ => false

/-- The index of the event that closes a tag of the given kind, with `depth` more tags of that kind
open inside it. -/
def endIndex? (kind : TagKind) : Nat → List Event → Option Nat
  | _, [] => none
  | depth, e :: es =>
    if e.closes kind then
      match depth with
      | 0 => some 0
      | depth + 1 => (endIndex? kind depth es).map (· + 1)
    else if e.opens kind then (endIndex? kind (depth + 1) es).map (· + 1)
    else (endIndex? kind depth es).map (· + 1)

/-- The index of the event that closes a tag, among the events behind its start. Without such an
event it is the index of the last event. -/
def endIndex (kind : TagKind) (events : List Event) : Nat :=
  (endIndex? kind 0 events).getD (events.length - 1)

/-- The node of an event that encloses nothing; ends and task markers have none. -/
def leaf? : Event → Option Node
  | .start _ => none
  | .stop _ => none
  | .text value => some (.text value)
  | .code value => some (.inlineCode value)
  | .html value => some (.valued Kind.html value)
  | .inlineHtml value => some (.valued Kind.html value)
  | .inlineMath value => some (.valued Kind.inlineMath value)
  | .displayMath value => some (.valued Kind.math value)
  | .footnoteReference _ => some (.bare Kind.footnoteReference)
  | .softBreak => some (.text "\n")
  | .hardBreak => some (.bare Kind.hardBreak)
  | .rule => some (.bare Kind.thematicBreak)
  | .taskMarker _ => none

/-- The state of a list item's box: the marker is the item's first event, or the first event of the
paragraph that opens it. -/
def checked? : List Event → Option Bool
  | .taskMarker checked :: _ => some checked
  | _ :: .taskMarker checked :: _ => some checked
  | _ => none

end Event

/-- Whether a tag opens a block. Inside a list item everything else is inline content. -/
def Tag.isBlock : Tag → Bool
  | .paragraph => true
  | .heading _ => true
  | .blockQuote => true
  | .codeBlock _ => true
  | .list _ => true
  | .item => true
  | .footnoteDefinition _ => true
  | .table => true
  | .htmlBlock => true
  | .metadata _ => true
  | .definitionList => true
  | _ => false

/-- A node with the knowledge whether a block event made it. -/
structure Piece where
  isBlock : Bool
  node : Node

namespace Node

/-- A run of inline nodes as a paragraph; an empty run is nothing. -/
def wrapRun (run : List Node) : List Node :=
  if run.isEmpty then [] else [.paragraph (joinTexts run)]

/-- Wraps each run of inline pieces in a paragraph, with the run before the pieces in `run` (last
first), and leaves the blocks as they are. -/
def wrapRuns (run : List Node) : List Piece → List Node
  | [] => wrapRun run.reverse
  | ⟨true, node⟩ :: rest => wrapRun run.reverse ++ node :: wrapRuns [] rest
  | ⟨false, node⟩ :: rest => wrapRuns (node :: run) rest

end Node

/-- A text without its final line end, if it has one. -/
def dropFinalNewline (s : String) : String :=
  match s.toList.reverse with
  | '\n' :: rest => String.ofList rest.reverse
  | _ => s

/-- The first word of a text. -/
def firstWord? (s : String) : Option String :=
  match (s.toList.dropWhile Text.isBlank).takeWhile fun c => !Text.isBlank c with
  | [] => none
  | word => some (String.ofList word)

namespace FrontMatter

/-- The kind of node that holds front matter in a language. -/
def kindName : FrontMatter → String
  | .yaml => Kind.yaml
  | .toml => Kind.toml

end FrontMatter

/-- The content of a tag, from the pieces inside it: an item holds blocks, everything else what it
holds in the events. -/
def Tag.content : Tag → List Piece → List Node
  | .item, pieces => Node.wrapRuns [] pieces
  | _, pieces => Node.joinTexts (pieces.map Piece.node)

/-- The node of a tag, from the events inside it and their content. -/
def Tag.node (tag : Tag) (inside : List Event) (nodes : List Node) : Node :=
  match tag with
  | .paragraph => .paragraph nodes
  | .heading level => .heading level.depth nodes
  | .blockQuote => .blockquote nodes
  | .codeBlock info => .code (dropFinalNewline (Node.plainTexts nodes)) (info.bind firstWord?)
  | .htmlBlock => .valued Kind.html (dropFinalNewline (Node.values nodes))
  | .list start => .list start.isSome start nodes
  | .item => .listItem (Event.checked? inside) nodes
  | .footnoteDefinition _ => .holding Kind.footnoteDefinition nodes
  | .definitionList => .holding Kind.definitionList nodes
  | .definitionListTitle => .holding Kind.definitionTerm nodes
  | .definitionListDefinition => .holding Kind.definitionDescription nodes
  | .table => .holding Kind.table nodes
  | .tableHead => .holding Kind.tableRow nodes
  | .tableRow => .holding Kind.tableRow nodes
  | .tableCell => .holding Kind.tableCell nodes
  | .emphasis => .emphasis nodes
  | .strong => .strong nodes
  | .strikethrough => .delete nodes
  | .link url => .link url nodes
  | .image url => .image url (Node.plainTexts nodes)
  | .metadata language =>
    .valued language.kindName (dropFinalNewline (Node.plainTexts nodes))

/-- The pieces that a list of events describes, one for each event that is inside no other tag of
the list and has a node. -/
def Piece.ofEvents : List Event → List Piece
  | [] => []
  | .start tag :: events =>
    let i := Event.endIndex tag.kind events
    let inside := events.take i
    ⟨tag.isBlock, tag.node inside (tag.content (ofEvents inside))⟩ :: ofEvents (events.drop (i + 1))
  | event :: events =>
    match event.leaf? with
    | some node => ⟨event = .rule, node⟩ :: ofEvents events
    | none => ofEvents events
termination_by events => events.length

namespace Node

/-- The nodes that a list of events describes. -/
def ofEvents (events : List Event) : List Node := joinTexts ((Piece.ofEvents events).map Piece.node)

/-- The blocks of a list item that a list of events describes. -/
def blocksOfEvents (events : List Event) : List Node := wrapRuns [] (Piece.ofEvents events)

end Node

end Bracketdown
