import Bracketdown.Node.Basic

/-!
# What nodes hold

The text below a node, the values of nodes without a constructor of their own, and the joining of
texts that stand side by side.
-/

namespace Bracketdown

namespace Node

/-- Puts a node in front of others, joining two texts into one. -/
def consJoined : Node → List Node → List Node
  | .text a, .text b :: rest => .text (a ++ b) :: rest
  | node, rest => node :: rest

/-- Joins texts that follow one another. -/
def joinTexts : List Node → List Node
  | [] => []
  | node :: rest => consJoined node (joinTexts rest)

/-- Appends a node to others, which stand last first, joining it onto the text in front of it when
it is a text as well. -/
def pushJoined (nodes : List Node) (node : Node) : List Node :=
  match node, nodes with
  | .text b, .text a :: before => .text (a ++ b) :: before
  | node, nodes => node :: nodes

mutual

/-- The text of a node and everything below it. -/
def plainText : Node → String
  | .text value => value
  | .inlineCode value => value
  | .root cs => plainTexts cs
  | .paragraph cs => plainTexts cs
  | .heading _ cs => plainTexts cs
  | .list _ _ cs => plainTexts cs
  | .listItem _ cs => plainTexts cs
  | .link _ cs => plainTexts cs
  | .strong cs => plainTexts cs
  | .emphasis cs => plainTexts cs
  | .blockquote cs => plainTexts cs
  | .delete cs => plainTexts cs
  | .other _ _ (some cs) => plainTexts cs
  | .other _ _ none => ""
  | .image _ _ => ""
  | .code _ _ => ""

/-- The text of a list of nodes. -/
def plainTexts : List Node → String
  | [] => ""
  | node :: rest => plainText node ++ plainTexts rest

end

/-- The value of a node of another kind. -/
def value? : Node → Option String
  | .other _ value _ => value
  | _ => none

/-- The values of the nodes of other kinds in a list, one after the other. -/
def values (nodes : List Node) : String := String.join (nodes.filterMap value?)

end Node

end Bracketdown
