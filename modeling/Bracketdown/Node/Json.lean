import Bracketdown.Json.Basic
import Bracketdown.Node.Record

/-!
# Writing documents as JSON

A node is an object that starts with its kind and lists, in the fixed order of the fields, those
that its kind uses; an absent field is left out and never written as `null`. `Node.encode` is the
compact text and `Node.encodePretty` the indented one.
-/

namespace Bracketdown

namespace Node

/-- A member under a field's name. -/
def member (field : Field) (v : Json) : String × Json := (field.name, v)

/-- A member for a field that may be absent. -/
def optional {α : Type} (field : Field) (spell : α → Json) : Option α → List (String × Json)
  | none => []
  | some a => [member field (spell a)]

/-- The object of a kind with the given further members. -/
def tagged (kind : String) (members : List (String × Json)) : Json :=
  .object (member .kind (.string kind) :: members)

mutual

/-- The JSON value of a node. -/
def toJson : Node → Json
  | .root cs => tagged "root" [member .children (.array (toJsons cs))]
  | .paragraph cs => tagged "paragraph" [member .children (.array (toJsons cs))]
  | .heading depth cs =>
    tagged "heading" [member .depth (.number depth.toNat), member .children (.array (toJsons cs))]
  | .text value => tagged "text" [member .value (.string value)]
  | .list ordered start cs =>
    tagged "list" (member .ordered (.bool ordered)
      :: (optional .start (fun n => .number n.toNat) start
        ++ [member .children (.array (toJsons cs))]))
  | .listItem checked cs =>
    tagged "listItem" (optional .checked .bool checked ++ [member .children (.array (toJsons cs))])
  | .link url cs =>
    tagged "link" [member .url (.string url), member .children (.array (toJsons cs))]
  | .image url alt => tagged "image" [member .url (.string url), member .alt (.string alt)]
  | .strong cs => tagged "strong" [member .children (.array (toJsons cs))]
  | .emphasis cs => tagged "emphasis" [member .children (.array (toJsons cs))]
  | .blockquote cs => tagged "blockquote" [member .children (.array (toJsons cs))]
  | .delete cs => tagged "delete" [member .children (.array (toJsons cs))]
  | .inlineCode value => tagged "inlineCode" [member .value (.string value)]
  | .code value lang =>
    tagged "code" (member .value (.string value) :: optional .lang .string lang)
  | .other kind value none => tagged kind (optional .value .string value)
  | .other kind value (some cs) =>
    tagged kind (optional .value .string value ++ [member .children (.array (toJsons cs))])

/-- The JSON values of a list of nodes. -/
def toJsons : List Node → List Json
  | [] => []
  | node :: rest => toJson node :: toJsons rest

end

/-- The compact text of a document. -/
def encode (node : Node) : String := String.ofList node.toJson.compact

/-- The indented text of a document. -/
def encodePretty (node : Node) : String := String.ofList (node.toJson.pretty 0)

end Node

end Bracketdown
