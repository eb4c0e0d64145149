import Bracketdown.Link.Literal
import Bracketdown.Node.Basic

/-!
# Linking the literals of a document

`Node.linkLiterals` replaces every text of a document by its segments, so that link literals become
links. Links, images and code are left as they are, and so is a document that is nothing but one
text.
-/

namespace Bracketdown

/-- The node of a segment. -/
def Link.Segment.toNode : Link.Segment → Node
  | .plain text => .text (String.ofList text)
  | .literal url text => .link (String.ofList url) [.text (String.ofList text)]

/-- The nodes of a text with its literals linked. -/
def Node.splitText (value : String) : List Node := (Link.split value.toList).map (·.toNode)

mutual

/-- A node with the literals below it linked. -/
def Node.linkLiterals : Node → Node
  | .root cs => .root (Node.linkAll cs)
  | .paragraph cs => .paragraph (Node.linkAll cs)
  | .heading depth cs => .heading depth (Node.linkAll cs)
  | .list ordered start cs => .list ordered start (Node.linkAll cs)
  | .listItem checked cs => .listItem checked (Node.linkAll cs)
  | .strong cs => .strong (Node.linkAll cs)
  | .emphasis cs => .emphasis (Node.linkAll cs)
  | .blockquote cs => .blockquote (Node.linkAll cs)
  | .delete cs => .delete (Node.linkAll cs)
  | .other kind value (some cs) => .other kind value (some (Node.linkAll cs))
  | .other kind value none => .other kind value none
  | .text value => .text value
  | .link url cs => .link url cs
  | .image url alt => .image url alt
  | .inlineCode value => .inlineCode value
  | .code value lang => .code value lang

/-- The children of a node with the literals among and below them linked. -/
def Node.linkAll : List Node → List Node
  | [] => []
  | .text value :: rest => Node.splitText value ++ Node.linkAll rest
  | node :: rest => node.linkLiterals :: Node.linkAll rest

end

theorem Node.linkAll_of_ne_text {node : Node} (h : ∀ value, node ≠ .text value)
    (nodes : List Node) : linkAll (node :: nodes) = node.linkLiterals :: linkAll nodes := by
  rw [linkAll]
  exact h

end Bracketdown
