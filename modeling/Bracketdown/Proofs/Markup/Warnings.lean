import Bracketdown.Markup.Writer
import Bracketdown.Proofs.Node.Tree
import Mathlib.Data.List.Basic
import Mathlib.Data.List.Flatten

/-!
# What the warnings report

A node without a constructor of its own is reported when it is written. The pages that carry the
warnings are handed from node to node, and a quote is even written on a page of its own, so it is
not plain that nothing is reported twice or out of order. `warnings_node` says that it is not: the
warnings that writing a node adds are those of the nodes below it that are written, from the top
down, whatever stands on the page already.

Not every node of a tree is written: the value of a node stands in for its children. A node of
another kind among those children is lost without a report, and `warnings_emit_eq_iff` says that
this is the only way in which one can be: the warnings are one for each node of another kind in the
whole tree exactly when no such node lies below a value.
-/

namespace Bracketdown

namespace Node

/-- The children of a node that are written with it: none when a value stands in for them. -/
def writtenChildren : Node → List Node
  | .other _ (some _) _ => []
  | node => node.children

theorem mem_children_of_mem_writtenChildren {child node : Node}
    (h : child ∈ node.writtenChildren) : child ∈ node.children := by
  unfold writtenChildren at h
  split at h
  · exact absurd h List.not_mem_nil
  · exact h

/-- The nodes of a tree that are written, from the top down, each before its children. -/
def written (node : Node) : List Node :=
  node :: node.writtenChildren.attach.flatMap fun ⟨child, _⟩ => child.written
termination_by sizeOf node
decreasing_by exact sizeOf_lt_of_mem_children (mem_children_of_mem_writtenChildren ‹_›)

theorem written_eq (node : Node) :
    node.written = node :: node.writtenChildren.flatMap written := by
  rw [written]
  simp

/-- The warning about a node. -/
def warning? : Node → Option Warning
  | .other kind _ _ => some (.unsupported kind)
  | _ => none

/-- No node that a warning is about lies below a node whose value stands in for its children. -/
def HidesNothing : Node → Prop
  | .other _ (some _) (some cs) => ∀ child ∈ cs, child.Everywhere fun node => node.warning? = none
  | _ => True

end Node

namespace Markup

open Node (warning? written writtenChildren preorder)

/-! ## What is written -/

/-- The warnings about the nodes of a tree that are written. -/
def warningsOf (node : Node) : List Warning := node.written.filterMap warning?

theorem warningsOf_eq (node : Node) :
    warningsOf node = node.warning?.toList ++ node.writtenChildren.flatMap warningsOf := by
  rw [warningsOf, Node.written_eq, List.filterMap_cons, List.filterMap_flatMap]
  cases node.warning? <;> rfl

mutual

/-- **Writing a node adds the warnings about what is written.** -/
theorem warnings_node (page : Page) (node : Node) :
    (page.node node).warnings = page.warnings ++ warningsOf node := by
  rw [warningsOf_eq]
  cases node with
  | root cs =>
    cases cs with
    | nil => exact (List.append_nil _).symm
    | cons first rest =>
      show ((page.node first).blocks rest).warnings
        = page.warnings ++ (first :: rest).flatMap warningsOf
      rw [warnings_blocks, warnings_node page first, List.flatMap_cons, List.append_assoc]
  | paragraph cs => exact warnings_nodes page cs
  | heading depth cs => exact warnings_nodes (page.write _) cs
  | text value => exact (List.append_nil _).symm
  | list ordered start cs => exact warnings_nodes (page.write _) cs
  | listItem checked cs => exact warnings_nodes (page.write _) cs
  | link url cs => exact warnings_nodes (page.write _) cs
  | image url alt => exact (List.append_nil _).symm
  | strong cs => exact warnings_nodes (page.write _) cs
  | emphasis cs => exact warnings_nodes (page.write _) cs
  | blockquote cs =>
    -- The page of the quote starts empty but for the warnings, and gives them back.
    exact warnings_nodes { warnings := page.warnings } cs
  | delete cs => exact warnings_nodes (page.write _) cs
  | inlineCode value => exact (List.append_nil _).symm
  | code value lang => exact (List.append_nil _).symm
  | other kind value cs =>
    cases value with
    | some value => rfl
    | none =>
      cases cs with
      | none => rfl
      | some cs =>
        show ((page.warn (.unsupported kind)).nodes cs).warnings
          = page.warnings ++ ([.unsupported kind] ++ cs.flatMap warningsOf)
        rw [warnings_nodes (page.warn (.unsupported kind)) cs, ← List.append_assoc]
        rfl

theorem warnings_nodes (page : Page) (nodes : List Node) :
    (page.nodes nodes).warnings = page.warnings ++ nodes.flatMap warningsOf := by
  cases nodes with
  | nil => exact (List.append_nil _).symm
  | cons node nodes =>
    rw [Page.nodes, warnings_nodes, warnings_node page node, List.flatMap_cons, List.append_assoc]

theorem warnings_blocks (page : Page) (nodes : List Node) :
    (page.blocks nodes).warnings = page.warnings ++ nodes.flatMap warningsOf := by
  cases nodes with
  | nil => exact (List.append_nil _).symm
  | cons node nodes =>
    rw [Page.blocks, warnings_blocks, warnings_node (page.write _) node, List.flatMap_cons,
      ← List.append_assoc]
    rfl

end

/-- The warnings about a document are those about what is written of it. -/
theorem warnings_emit (tree : Node) : (emit tree).warnings = warningsOf tree :=
  warnings_node {} tree

/-! ## What is not -/

/-- The warnings about all nodes of a tree, written or not. -/
def allWarnings (node : Node) : List Warning := node.preorder.filterMap warning?

theorem allWarnings_eq (node : Node) :
    allWarnings node = node.warning?.toList ++ node.children.flatMap allWarnings :=
  Node.filterMap_preorder warning? node

theorem allWarnings_eq_nil {node : Node} :
    allWarnings node = [] ↔ node.Everywhere fun node => node.warning? = none :=
  List.filterMap_eq_nil_iff

/-- Lists that can only lose elements agree as a whole when they agree one by one. -/
theorem flatMap_eq_flatMap_iff {α β : Type} {f g : α → List β} {xs : List α}
    (h : ∀ x ∈ xs, (f x).Sublist (g x)) :
    xs.flatMap f = xs.flatMap g ↔ ∀ x ∈ xs, f x = g x := by
  constructor
  · induction xs with
    | nil => exact fun _ x hx => absurd hx List.not_mem_nil
    | cons x xs ih =>
      intro heq
      rw [List.flatMap_cons, List.flatMap_cons] at heq
      have hhead := h x (List.mem_cons_self ..)
      have htail : ∀ y ∈ xs, (f y).Sublist (g y) := fun y hy => h y (List.mem_cons_of_mem _ hy)
      have hlength := congrArg List.length heq
      rw [List.length_append, List.length_append] at hlength
      have hle := hhead.length_le
      have hle' := (List.Sublist.flatMap_right xs htail).length_le
      have hx : f x = g x := hhead.eq_of_length (by omega)
      rw [hx] at heq
      intro y hy
      rcases List.mem_cons.mp hy with rfl | hy
      · exact hx
      · exact ih htail (List.append_cancel_left heq) y hy
  · intro heq
    exact List.flatMap_congr heq

theorem warningsOf_sublist (tree : Node) : (warningsOf tree).Sublist (allWarnings tree) := by
  induction tree using Node.childInduction with
  | step tree ih =>
    rw [warningsOf_eq, allWarnings_eq]
    refine (List.Sublist.refl _).append ?_
    have hchildren := List.Sublist.flatMap_right tree.children ih
    unfold Node.writtenChildren
    split
    · exact List.nil_sublist _
    · exact hchildren

/-- Either a value stands in for the children of a node, or all of them are written. -/
theorem hides_or_writes (node : Node) :
    (∃ kind value cs, node = .other kind (some value) (some cs))
      ∨ node.writtenChildren = node.children ∧ node.HidesNothing := by
  cases node with
  | other kind value cs =>
    cases value with
    | none => exact .inr ⟨rfl, trivial⟩
    | some value =>
      cases cs with
      | none => exact .inr ⟨rfl, trivial⟩
      | some cs => exact .inl ⟨kind, value, cs, rfl⟩
  | _ => exact .inr ⟨rfl, trivial⟩

/-- Where nothing has a warning, there is nothing to hide. -/
theorem everywhere_hidesNothing {node : Node}
    (h : node.Everywhere fun node => node.warning? = none) :
    node.Everywhere Node.HidesNothing := by
  intro below hbelow
  have hnone := h below hbelow
  cases below with
  | other kind value cs => cases hnone
  | _ => trivial

theorem warningsOf_eq_allWarnings_iff (tree : Node) :
    warningsOf tree = allWarnings tree ↔ tree.Everywhere Node.HidesNothing := by
  induction tree using Node.childInduction with
  | step tree ih =>
    rw [warningsOf_eq, allWarnings_eq, Node.everywhere_iff, List.append_cancel_left_eq]
    rcases hides_or_writes tree with ⟨kind, value, cs, rfl⟩ | ⟨hwritten, hhere⟩
    · have hnil : [] = cs.flatMap allWarnings ↔
          ∀ child ∈ cs, child.Everywhere fun node => node.warning? = none := by
        rw [eq_comm, List.flatMap_eq_nil_iff]
        exact forall₂_congr fun child _ => allWarnings_eq_nil
      show [] = cs.flatMap allWarnings ↔ _ ∧ ∀ child ∈ cs, _
      rw [hnil]
      constructor
      · intro hnone
        exact ⟨hnone, fun child hchild => everywhere_hidesNothing (hnone child hchild)⟩
      · intro h
        exact h.1
    · rw [hwritten, flatMap_eq_flatMap_iff fun child _ => warningsOf_sublist child]
      constructor
      · intro h
        exact ⟨hhere, fun child hchild => (ih child hchild).mp (h child hchild)⟩
      · intro h child hchild
        exact (ih child hchild).mpr (h.2 child hchild)

/-- **The warnings are one for each node of another kind in the tree, in the order of the tree,
exactly when no such node lies below one whose value stands in for its children.** -/
theorem warnings_emit_eq_iff (tree : Node) :
    (emit tree).warnings = tree.preorder.filterMap warning?
      ↔ tree.Everywhere Node.HidesNothing := by
  rw [warnings_emit]
  exact warningsOf_eq_allWarnings_iff tree

/-- A node behind a value is left out, and no warning says so. -/
theorem warnings_emit_behind_value :
    (emit (.other "a" (some "v") (some [.bare "b"]))).warnings = [.unsupported "a"]
      ∧ (Node.other "a" (some "v") (some [.bare "b"])).preorder.filterMap warning?
        = [.unsupported "a", .unsupported "b"] := by
  constructor
  · rfl
  · show allWarnings _ = _
    rw [allWarnings_eq]
    show _ ++ List.flatMap allWarnings [.bare "b"] = _
    rw [List.flatMap_cons, allWarnings_eq]
    rfl

end Markup

end Bracketdown
