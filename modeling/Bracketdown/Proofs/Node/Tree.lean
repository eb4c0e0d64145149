import Bracketdown.Node.Basic

/-!
# Trees as wholes

A statement about a tree is proved from the children up (`childInduction`). `Everywhere` is the
most common one: that something holds of every node. It holds of a tree when it holds of the root
and everywhere in the children (`everywhere_iff`). A statement about nodes with children of whatever
kind is one about shells, which are nodes without their children.
-/

namespace Bracketdown.Node

/-- Induction over a tree: what holds of a node whenever it holds of its children holds of every
node. -/
theorem childInduction {motive : Node → Prop}
    (step : ∀ node, (∀ child ∈ node.children, motive child) → motive node) (node : Node) :
    motive node :=
  step node fun child _ => childInduction step child
termination_by sizeOf node
decreasing_by exact sizeOf_lt_of_mem_children ‹_›

theorem preorder_eq (node : Node) : node.preorder = node :: node.children.flatMap preorder := by
  rw [preorder]
  simp

/-- What is picked from the nodes of a tree is what is picked from its root and from its children.
-/
theorem filterMap_preorder {α : Type} (f : Node → Option α) (node : Node) :
    node.preorder.filterMap f
      = (f node).toList ++ node.children.flatMap fun child => child.preorder.filterMap f := by
  rw [preorder_eq, List.filterMap_cons, List.filterMap_flatMap]
  cases f node <;> rfl

/-- What is gathered from the nodes of a tree is what its root and its children give. -/
theorem flatMap_preorder {α : Type} (f : Node → List α) (node : Node) :
    node.preorder.flatMap f = f node ++ node.children.flatMap fun child => child.preorder.flatMap f := by
  rw [preorder_eq, List.flatMap_cons, List.flatMap_assoc]

/-- The nodes of a tree are its root and the nodes of its children. -/
theorem mem_preorder {node tree : Node} :
    node ∈ tree.preorder ↔ node = tree ∨ ∃ child ∈ tree.children, node ∈ child.preorder := by
  rw [preorder]
  simp only [List.mem_cons, List.mem_flatMap, List.mem_attach, true_and, Subtype.exists,
    exists_prop]

theorem self_mem_preorder (tree : Node) : tree ∈ tree.preorder := mem_preorder.mpr (Or.inl rfl)

/-- Something holds of every node of a tree. -/
def Everywhere (P : Node → Prop) (tree : Node) : Prop := ∀ node ∈ tree.preorder, P node

theorem everywhere_iff {P : Node → Prop} {tree : Node} :
    tree.Everywhere P ↔ P tree ∧ ∀ child ∈ tree.children, child.Everywhere P := by
  constructor
  · intro h
    exact ⟨h tree (self_mem_preorder tree), fun child hchild node hnode =>
      h node (mem_preorder.mpr (Or.inr ⟨child, hchild, hnode⟩))⟩
  · rintro ⟨here, below⟩ node hnode
    rcases mem_preorder.mp hnode with rfl | ⟨child, hchild, hmem⟩
    · exact here
    · exact below child hchild node hmem

theorem everywhere_of_leaf {P : Node → Prop} {node : Node} (h : P node)
    (hchildren : node.children = []) : node.Everywhere P := by
  rw [everywhere_iff, hchildren]
  exact ⟨h, fun _ hchild => absurd hchild List.not_mem_nil⟩

/-! ## Nodes without their children -/

/-- A node that can have children, without them. -/
inductive Shell where
  | root
  | paragraph
  | heading (depth : UInt8)
  | list (ordered : Bool) (start : Option UInt64)
  | listItem (checked : Option Bool)
  | link (url : String)
  | strong
  | emphasis
  | blockquote
  | delete
  | other (kind : String) (value : Option String)
  deriving DecidableEq, Repr

/-- The node with the given children. -/
def Shell.around : Shell → List Node → Node
  | .root, cs => .root cs
  | .paragraph, cs => .paragraph cs
  | .heading depth, cs => .heading depth cs
  | .list ordered start, cs => .list ordered start cs
  | .listItem checked, cs => .listItem checked cs
  | .link url, cs => .link url cs
  | .strong, cs => .strong cs
  | .emphasis, cs => .emphasis cs
  | .blockquote, cs => .blockquote cs
  | .delete, cs => .delete cs
  | .other kind value, cs => .other kind value (some cs)

theorem children_around (shell : Shell) (cs : List Node) : (shell.around cs).children = cs := by
  cases shell <;> rfl

/-- A node with children is a shell around them. -/
theorem exists_around_eq {node : Node} (h : node.children ≠ []) :
    ∃ shell : Shell, shell.around node.children = node := by
  cases node with
  | root => exact ⟨.root, rfl⟩
  | paragraph => exact ⟨.paragraph, rfl⟩
  | heading depth => exact ⟨.heading depth, rfl⟩
  | list ordered start => exact ⟨.list ordered start, rfl⟩
  | listItem checked => exact ⟨.listItem checked, rfl⟩
  | link url => exact ⟨.link url, rfl⟩
  | strong => exact ⟨.strong, rfl⟩
  | emphasis => exact ⟨.emphasis, rfl⟩
  | blockquote => exact ⟨.blockquote, rfl⟩
  | delete => exact ⟨.delete, rfl⟩
  | other kind value cs =>
    cases cs with
    | some cs => exact ⟨.other kind value, rfl⟩
    | none => exact absurd rfl h
  | text | image | inlineCode | code => exact absurd rfl h

end Bracketdown.Node
