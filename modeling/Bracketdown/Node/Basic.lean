import Bracketdown.Node.Kind

/-!
# Document trees

`Node` is the document between the two ends of a conversion: the Markdown reader builds it, the
markup writer renders it, and the JSON form stores it. Fourteen kinds have a constructor of their
own; `Node.other` carries every further kind as a word with an optional value and optional
children, so nothing that a reader meets is lost before the writer decides what to do with it.

The depth of a heading and the number of a list's first item are machine words, as in the stored
form: eight bits and sixty-four bits.
-/

namespace Bracketdown

/-- A node of a document, with everything below it. -/
inductive Node where
  | root (children : List Node)
  | paragraph (children : List Node)
  /-- A heading; readers give depths from one to six. -/
  | heading (depth : UInt8) (children : List Node)
  | text (value : String)
  /-- A list; `start` is the number of an ordered list's first item. -/
  | list (ordered : Bool) (start : Option UInt64) (children : List Node)
  /-- A list item; `checked` is the state of a task item's box. -/
  | listItem (checked : Option Bool) (children : List Node)
  | link (url : String) (children : List Node)
  | image (url : String) (alt : String)
  | strong (children : List Node)
  | emphasis (children : List Node)
  | blockquote (children : List Node)
  | delete (children : List Node)
  | inlineCode (value : String)
  /-- A block of code; `lang` is the first word after an opening fence. -/
  | code (value : String) (lang : Option String)
  /-- A node of any kind without a constructor of its own. -/
  | other (kind : String) (value : Option String) (children : Option (List Node))
  deriving Inhabited, Repr, BEq

namespace Node

/-- A node that only has a kind. -/
def bare (kind : String) : Node := .other kind none none

/-- A node of another kind that carries a value. -/
def valued (kind : String) (value : String) : Node := .other kind (some value) none

/-- A node of another kind that carries children. -/
def holding (kind : String) (children : List Node) : Node := .other kind none (some children)

/-- The refusal to make a bare node under a dedicated kind name. -/
structure DedicatedKind where
  kind : String
  deriving Repr, DecidableEq

/-- The wording of the refusal. -/
def DedicatedKind.message (e : DedicatedKind) : String :=
  "`" ++ e.kind ++ "` has a dedicated Node variant"

/-- A bare node of the given kind, refused when the kind has a constructor of its own. -/
def bare? (kind : String) : Except DedicatedKind Node :=
  if Kind.isDedicated kind then .error ⟨kind⟩ else .ok (bare kind)

/-- Gives a node of another kind the value `value`; nodes with a constructor stay as they are. -/
def withValue (value : String) : Node → Node
  | .other kind _ children => .other kind (some value) children
  | node => node

/-- Gives a node of another kind the children `nodes`; nodes with a constructor stay as they
are. -/
def withChildren (nodes : List Node) : Node → Node
  | .other kind value _ => .other kind value (some nodes)
  | node => node

/-- The kind name of a node. -/
def kind : Node → String
  | .root _ => "root"
  | .paragraph _ => "paragraph"
  | .heading _ _ => "heading"
  | .text _ => "text"
  | .list _ _ _ => "list"
  | .listItem _ _ => "listItem"
  | .link _ _ => "link"
  | .image _ _ => "image"
  | .strong _ => "strong"
  | .emphasis _ => "emphasis"
  | .blockquote _ => "blockquote"
  | .delete _ => "delete"
  | .inlineCode _ => "inlineCode"
  | .code _ _ => "code"
  | .other kind _ _ => kind

/-- The children of a node; a leaf has none. -/
def children : Node → List Node
  | .root cs => cs
  | .paragraph cs => cs
  | .heading _ cs => cs
  | .list _ _ cs => cs
  | .listItem _ cs => cs
  | .link _ cs => cs
  | .strong cs => cs
  | .emphasis cs => cs
  | .blockquote cs => cs
  | .delete cs => cs
  | .other _ _ cs => cs.getD []
  | .text _ => []
  | .image _ _ => []
  | .inlineCode _ => []
  | .code _ _ => []

/-- A child is smaller than its parent, so walks over `children` end. -/
theorem sizeOf_lt_of_mem_children {child node : Node} (h : child ∈ node.children) :
    sizeOf child < sizeOf node := by
  have below := List.sizeOf_lt_of_mem h
  cases node with
  | other kind value cs =>
    cases cs with
    | none => simp [children] at h
    | some cs =>
      simp_all [children]
      omega
  | _ => simp_all [children] <;> omega

/-- The nodes of a tree from the top down, each before its children. -/
def preorder (node : Node) : List Node :=
  node :: node.children.attach.flatMap fun ⟨child, _⟩ => child.preorder
termination_by sizeOf node
decreasing_by exact sizeOf_lt_of_mem_children ‹_›

end Node

end Bracketdown
