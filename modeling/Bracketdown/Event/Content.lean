import Bracketdown.Event.Tree

/-!
# Content on the way

What a reader that goes from event to event has read of a document or a tag so far. A text is joined
onto a text in front of it, and in an item inline nodes are gathered until a block comes.
-/

namespace Bracketdown

/-- The finished nodes of a document or a tag and, in an item, the inline nodes behind its last
block. Nodes stand last first. -/
structure Content where
  nodes : List Node := []
  run : List Node := []

namespace Content

/-- Ends the run of inline nodes; unless it is empty it becomes a paragraph. -/
def flush (content : Content) : Content :=
  if content.run.isEmpty then content
  else { nodes := .paragraph content.run.reverse :: content.nodes }

/-- Appends a finished node. In an item, which is what `wraps` says, a block ends the run and
everything else goes into it. -/
def append (wraps : Bool) (content : Content) (piece : Piece) : Content :=
  if wraps then
    if piece.isBlock then { nodes := piece.node :: content.flush.nodes }
    else { content with run := Node.pushJoined content.run piece.node }
  else { content with nodes := Node.pushJoined content.nodes piece.node }

/-- All nodes, first first. -/
def finish (content : Content) : List Node := content.flush.nodes.reverse

end Content

end Bracketdown
