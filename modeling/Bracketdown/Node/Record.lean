import Bracketdown.Node.Basic

/-!
# The flat record of a node

The stored form of a node is one record with ten fields, of which only the kind must be there.
`Node.ofRecord` says which fields each kind needs and refuses a record that lacks one, or whose
heading depth is out of range; a field that a kind does not use is ignored, and a kind without a
constructor of its own takes whatever value and children there are.

`Node.record` is the way back: the fields a node is written with.
-/

namespace Bracketdown

namespace Node

/-- The ten fields of a stored node. -/
inductive Field where
  | kind | value | depth | ordered | start | checked | url | alt | lang | children
  deriving DecidableEq, Repr

namespace Field

/-- The fields in the order in which they are written. -/
def all : List Field :=
  [.kind, .value, .depth, .ordered, .start, .checked, .url, .alt, .lang, .children]

/-- The name of a field in the stored form. -/
def name : Field → String
  | .kind => "type"
  | .value => "value"
  | .depth => "depth"
  | .ordered => "ordered"
  | .start => "start"
  | .checked => "checked"
  | .url => "url"
  | .alt => "alt"
  | .lang => "lang"
  | .children => "children"

/-- The field of a given name. -/
def ofName? (name : String) : Option Field := all.find? fun field => field.name == name

end Field

/-- A stored node with its fields laid out flat. -/
structure Record where
  kind : String
  value : Option String := none
  depth : Option UInt8 := none
  ordered : Option Bool := none
  start : Option UInt64 := none
  checked : Option Bool := none
  url : Option String := none
  alt : Option String := none
  lang : Option String := none
  children : Option (List Node) := none

/-- Why a record is no node. -/
inductive Defect where
  /-- A node of this kind needs the field. -/
  | missing (kind : String) (field : Field)
  /-- A heading's depth must be from one to six. -/
  | badDepth (depth : UInt8)
  deriving DecidableEq, Repr

/-- The wording of a defect. -/
def Defect.message : Defect → String
  | .missing kind field => kind ++ " node is missing required field `" ++ field.name ++ "`"
  | .badDepth depth => "heading depth must be between 1 and 6, got " ++ toString depth.toNat

namespace Record

/-- What a record holds in a required field, or the defect of lacking it. -/
def need {α : Type} (r : Record) (field : Field) : Option α → Except Defect α
  | some a => .ok a
  | none => .error (.missing r.kind field)

/-- The children of a record that needs some. -/
def needChildren (r : Record) : Except Defect (List Node) := r.need .children r.children

/-- The value of a record that needs one. -/
def needValue (r : Record) : Except Defect String := r.need .value r.value

/-- The target of a record that needs one. -/
def needUrl (r : Record) : Except Defect String := r.need .url r.url

/-- The depth of a heading's record, checked for presence first and then for its range. -/
def needDepth (r : Record) : Except Defect UInt8 := do
  let depth ← r.need .depth r.depth
  if 1 ≤ depth ∧ depth ≤ 6 then pure depth else throw (.badDepth depth)

end Record

/-- The node a record describes. -/
def ofRecord (r : Record) : Except Defect Node :=
  match r.kind with
  | "root" => return .root (← r.needChildren)
  | "paragraph" => return .paragraph (← r.needChildren)
  | "heading" => do
    let depth ← r.needDepth
    return .heading depth (← r.needChildren)
  | "text" => return .text (← r.needValue)
  | "list" => return .list (r.ordered.getD false) r.start (← r.needChildren)
  | "listItem" => return .listItem r.checked (← r.needChildren)
  | "link" => do
    let url ← r.needUrl
    return .link url (← r.needChildren)
  | "image" => return .image (← r.needUrl) (r.alt.getD "")
  | "strong" => return .strong (← r.needChildren)
  | "emphasis" => return .emphasis (← r.needChildren)
  | "blockquote" => return .blockquote (← r.needChildren)
  | "delete" => return .delete (← r.needChildren)
  | "inlineCode" => return .inlineCode (← r.needValue)
  | "code" => return .code (← r.needValue) r.lang
  | kind => return .other kind r.value r.children

/-- The record a node is written as: every field that its kind uses, and no other. -/
def record (node : Node) : Record :=
  match node with
  | .root cs => { kind := "root", children := some cs }
  | .paragraph cs => { kind := "paragraph", children := some cs }
  | .heading depth cs => { kind := "heading", depth := some depth, children := some cs }
  | .text value => { kind := "text", value := some value }
  | .list ordered start cs =>
    { kind := "list", ordered := some ordered, start := start, children := some cs }
  | .listItem checked cs => { kind := "listItem", checked := checked, children := some cs }
  | .link url cs => { kind := "link", url := some url, children := some cs }
  | .image url alt => { kind := "image", url := some url, alt := some alt }
  | .strong cs => { kind := "strong", children := some cs }
  | .emphasis cs => { kind := "emphasis", children := some cs }
  | .blockquote cs => { kind := "blockquote", children := some cs }
  | .delete cs => { kind := "delete", children := some cs }
  | .inlineCode value => { kind := "inlineCode", value := some value }
  | .code value lang => { kind := "code", value := some value, lang := lang }
  | .other kind value cs => { kind := kind, value := value, children := cs }

end Node

end Bracketdown
