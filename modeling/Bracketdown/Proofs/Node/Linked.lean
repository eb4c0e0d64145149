import Bracketdown.Proofs.Node.LeafText

/-!
# What linking leaves as it is

Linking takes every list of children in a tree apart and puts another in its place, so it could lose
a list, skip a kind of node, or reach where it should not. `Linked` says all that it may do. Links,
images and code stay as they are, with everything in them. Any other node stays the node it is, and
its children are taken one after the other: a text becomes texts and links that hold it, in order,
and every other child becomes one node again, in its place.

Two things follow for whole trees. The text in the leaves is the same. And the links that lie inside
other links are the same ones (`nestedLinks`), so that no new link lies in a link, be it an old one
or a new one.
-/

namespace Bracketdown.Node

/-- Whether linking keeps a node with everything in it, among the children of another. -/
def isKept : Node → Bool
  | .link _ _ => true
  | .image _ _ => true
  | .inlineCode _ => true
  | .code _ _ => true
  | .other _ _ none => true
  | _ => false

/-- What a text may be cut into: a text, or a link that holds a text and nothing else. -/
inductive IsCut : Node → Prop where
  | text (value : String) : IsCut (.text value)
  | link (url value : String) : IsCut (.link url [.text value])

/-- Children, and what linking makes of them. -/
inductive LinkedAll : List Node → List Node → Prop where
  | nil : LinkedAll [] []
  /-- A text is cut, and nothing of it gets lost. -/
  | text {value : String} {parts cs cs' : List Node} (hparts : ∀ part ∈ parts, IsCut part)
    (htext : leafTexts parts = value) (hrest : LinkedAll cs cs') :
    LinkedAll (.text value :: cs) (parts ++ cs')
  | kept {node : Node} {cs cs' : List Node} (hnode : node.isKept = true)
    (hrest : LinkedAll cs cs') : LinkedAll (node :: cs) (node :: cs')
  /-- A node that is no link stays what it is around its own children. -/
  | within {shell : Shell} {below below' cs cs' : List Node} (hshell : ∀ url, shell ≠ .link url)
    (hbelow : LinkedAll below below') (hrest : LinkedAll cs cs') :
    LinkedAll (shell.around below :: cs) (shell.around below' :: cs')

/-- A tree, and what linking makes of it. -/
inductive Linked : Node → Node → Prop where
  /-- A text that is no child of another node has no place for links. -/
  | text (value : String) : Linked (.text value) (.text value)
  | kept {node : Node} (hnode : node.isKept = true) : Linked node node
  | within {shell : Shell} {below below' : List Node} (hshell : ∀ url, shell ≠ .link url)
    (hbelow : LinkedAll below below') : Linked (shell.around below) (shell.around below')

theorem text_or_kept_or_around (node : Node) :
    (∃ value, node = .text value) ∨ node.isKept = true
      ∨ ∃ (shell : Shell) (cs : List Node),
        (∀ url, shell ≠ .link url) ∧ node = shell.around cs := by
  cases node with
  | text value => exact .inl ⟨value, rfl⟩
  | link | image | inlineCode | code => exact .inr (.inl rfl)
  | root cs => exact .inr (.inr ⟨.root, cs, nofun, rfl⟩)
  | paragraph cs => exact .inr (.inr ⟨.paragraph, cs, nofun, rfl⟩)
  | heading depth cs => exact .inr (.inr ⟨.heading depth, cs, nofun, rfl⟩)
  | list ordered start cs => exact .inr (.inr ⟨.list ordered start, cs, nofun, rfl⟩)
  | listItem checked cs => exact .inr (.inr ⟨.listItem checked, cs, nofun, rfl⟩)
  | strong cs => exact .inr (.inr ⟨.strong, cs, nofun, rfl⟩)
  | emphasis cs => exact .inr (.inr ⟨.emphasis, cs, nofun, rfl⟩)
  | blockquote cs => exact .inr (.inr ⟨.blockquote, cs, nofun, rfl⟩)
  | delete cs => exact .inr (.inr ⟨.delete, cs, nofun, rfl⟩)
  | other kind value cs =>
    cases cs with
    | none => exact .inr (.inl rfl)
    | some cs => exact .inr (.inr ⟨.other kind value, cs, nofun, rfl⟩)

theorem linkLiterals_of_isKept {node : Node} (h : node.isKept = true) :
    node.linkLiterals = node := by
  cases node with
  | link | image | inlineCode | code => rfl
  | other kind value cs =>
    cases cs with
    | none => rfl
    | some => cases h
  | _ => cases h

theorem linkLiterals_around {shell : Shell} (h : ∀ url, shell ≠ .link url) (cs : List Node) :
    (shell.around cs).linkLiterals = shell.around (linkAll cs) := by
  cases shell with
  | link url => exact absurd rfl (h url)
  | _ => rfl

theorem isCut_toNode (segment : Link.Segment) : IsCut segment.toNode := by
  cases segment with
  | plain text => exact .text _
  | literal url text => exact .link _ _

theorem isCut_of_mem_splitText {value : String} {part : Node} (h : part ∈ splitText value) :
    IsCut part := by
  obtain ⟨segment, -, rfl⟩ := List.mem_map.mp h
  exact isCut_toNode segment

/-- Children are linked one after the other, if what is below each of them is linked. -/
theorem linkedAll_of_children {nodes : List Node}
    (h : ∀ node ∈ nodes, LinkedAll node.children (linkAll node.children)) :
    LinkedAll nodes (linkAll nodes) := by
  induction nodes with
  | nil => exact .nil
  | cons node nodes ih =>
    have hrest := ih fun n hn => h n (List.mem_cons_of_mem _ hn)
    have hbelow := h node (List.mem_cons_self ..)
    rcases text_or_ne node with ⟨value, rfl⟩ | hne
    · rw [linkAll]
      exact .text (fun _ => isCut_of_mem_splitText) (leafTexts_splitText value) hrest
    · rw [linkAll_of_ne_text hne]
      rcases text_or_kept_or_around node with ⟨value, rfl⟩ | hkept | ⟨shell, cs, hshell, rfl⟩
      · exact absurd rfl (hne value)
      · rw [linkLiterals_of_isKept hkept]
        exact .kept hkept hrest
      · rw [children_around] at hbelow
        rw [linkLiterals_around hshell]
        exact .within hshell hbelow hrest

theorem linkedAll_linkAll (tree : Node) : LinkedAll tree.children (linkAll tree.children) := by
  induction tree using childInduction with
  | step tree ih => exact linkedAll_of_children ih

/-- **Linking does nothing else.** -/
theorem linked_linkLiterals (tree : Node) : Linked tree tree.linkLiterals := by
  rcases text_or_kept_or_around tree with ⟨value, rfl⟩ | hkept | ⟨shell, cs, hshell, rfl⟩
  · exact .text value
  · rw [linkLiterals_of_isKept hkept]
    exact .kept hkept
  · have hbelow := linkedAll_linkAll (shell.around cs)
    rw [children_around] at hbelow
    rw [linkLiterals_around hshell]
    exact .within hshell hbelow

/-! ## The nodes of a linked tree -/

/-- Without texts among them nodes are linked one by one. -/
theorem linkAll_eq_map {nodes : List Node} (h : ∀ node ∈ nodes, ∀ value, node ≠ .text value) :
    linkAll nodes = nodes.map linkLiterals := by
  induction nodes with
  | nil => rfl
  | cons node nodes ih =>
    rw [linkAll_of_ne_text (h node (List.mem_cons_self ..)), List.map_cons,
      ih fun n hn => h n (List.mem_cons_of_mem _ hn)]

theorem mem_linkAll {child : Node} {nodes : List Node} (h : child ∈ linkAll nodes) :
    IsCut child ∨ ∃ node ∈ nodes, child = node.linkLiterals := by
  induction nodes with
  | nil => exact absurd h List.not_mem_nil
  | cons node nodes ih =>
    have hrest : child ∈ linkAll nodes →
        IsCut child ∨ ∃ n ∈ node :: nodes, child = n.linkLiterals := by
      intro hmem
      rcases ih hmem with hcut | ⟨n, hn, heq⟩
      · exact .inl hcut
      · exact .inr ⟨n, List.mem_cons_of_mem _ hn, heq⟩
    rcases text_or_ne node with ⟨value, rfl⟩ | hne
    · rw [linkAll] at h
      rcases List.mem_append.mp h with hpart | hmem
      · exact .inl (isCut_of_mem_splitText hpart)
      · exact hrest hmem
    · rw [linkAll_of_ne_text hne] at h
      rcases List.mem_cons.mp h with heq | hmem
      · exact .inr ⟨node, List.mem_cons_self .., heq⟩
      · exact hrest hmem

theorem IsCut.of_mem_preorder {part node : Node} (h : IsCut part) (hnode : node ∈ part.preorder) :
    IsCut node := by
  have htext : ∀ value, node ∈ (Node.text value).preorder → IsCut node := by
    intro value hmem
    rcases mem_preorder.mp hmem with rfl | ⟨child, hchild, -⟩
    · exact .text value
    · exact absurd hchild List.not_mem_nil
  cases h with
  | text value => exact htext value hnode
  | link url value =>
    rcases mem_preorder.mp hnode with rfl | ⟨child, hchild, hbelow⟩
    · exact .link url value
    · rw [List.mem_singleton.mp hchild] at hbelow
      exact htext value hbelow

/-- A node of a linked tree is new, or it was a node of the tree before. -/
theorem mem_preorder_linkLiterals {tree node : Node} (h : node ∈ tree.linkLiterals.preorder) :
    IsCut node ∨ ∃ old ∈ tree.preorder, node = old ∨ node = old.linkLiterals := by
  induction tree using childInduction with
  | step tree ih =>
    rcases text_or_kept_or_around tree with ⟨value, rfl⟩ | hkept | ⟨shell, cs, hshell, rfl⟩
    · exact .inr ⟨node, h, .inl rfl⟩
    · rw [linkLiterals_of_isKept hkept] at h
      exact .inr ⟨node, h, .inl rfl⟩
    · rw [linkLiterals_around hshell] at h
      rcases mem_preorder.mp h with rfl | ⟨child, hchild, hbelow⟩
      · exact .inr ⟨_, self_mem_preorder _, .inr (linkLiterals_around hshell cs).symm⟩
      · rw [children_around] at hchild
        rcases mem_linkAll hchild with hcut | ⟨old, hold, rfl⟩
        · exact .inl (hcut.of_mem_preorder hbelow)
        · have hchildren : old ∈ (shell.around cs).children := by
            rw [children_around]
            exact hold
          rcases ih old hchildren hbelow with hcut | ⟨below, hmem, heq⟩
          · exact .inl hcut
          · exact .inr ⟨below, mem_preorder.mpr (.inr ⟨old, hchildren, hmem⟩), heq⟩

/-! ## What is gathered from a tree -/

section Gathered

variable {α : Type} {f : Node → List α} (htext : ∀ value, f (.text value) = [])
  (hlink : ∀ url value, f (.link url [.text value]) = [])
  (hshell : ∀ (shell : Shell) (cs cs' : List Node), (∀ url, shell ≠ .link url) →
    f (shell.around cs) = f (shell.around cs'))

include htext hlink

theorem flatMap_preorder_of_isCut {part : Node} (h : IsCut part) :
    part.preorder.flatMap f = [] := by
  have hvalue : ∀ value, (Node.text value).preorder.flatMap f = [] := by
    intro value
    rw [flatMap_preorder, htext]
    rfl
  cases h with
  | text value => exact hvalue value
  | link url value =>
    rw [flatMap_preorder, hlink]
    exact List.flatMap_eq_nil_iff.mpr fun child hchild => by
      rw [List.mem_singleton.mp hchild, hvalue]

include hshell

/-- What texts and new links do not give, and other nodes whatever is below them, is the same as
before. -/
theorem LinkedAll.flatMap_preorder {cs cs' : List Node} (h : LinkedAll cs cs') :
    (cs'.flatMap fun node => node.preorder.flatMap f)
      = cs.flatMap fun node => node.preorder.flatMap f := by
  induction h with
  | nil => rfl
  | @text value parts cs cs' hparts _ _ ih =>
    -- Neither the text nor what it is cut into gives anything.
    have hnone : (parts.flatMap fun node => node.preorder.flatMap f) = [] :=
      List.flatMap_eq_nil_iff.mpr fun part hpart =>
        flatMap_preorder_of_isCut htext hlink (hparts part hpart)
    rw [List.flatMap_append, hnone, ih, List.flatMap_cons,
      flatMap_preorder_of_isCut htext hlink (.text value)]
  | kept _ _ ih => rw [List.flatMap_cons, ih, List.flatMap_cons]
  | @within shell below below' cs cs' hnode _ _ ihbelow ih =>
    rw [List.flatMap_cons, ih, List.flatMap_cons, Node.flatMap_preorder, children_around, ihbelow,
      hshell shell below' below hnode, Node.flatMap_preorder f (shell.around below),
      children_around]

theorem Linked.flatMap_preorder {tree tree' : Node} (h : Linked tree tree') :
    tree'.preorder.flatMap f = tree.preorder.flatMap f := by
  cases h with
  | text | kept => rfl
  | @within shell below below' hnode hbelow =>
    rw [Node.flatMap_preorder, children_around, hbelow.flatMap_preorder htext hlink hshell,
      hshell shell below' below hnode, Node.flatMap_preorder f (shell.around below),
      children_around]

end Gathered

def isLink : Node → Bool
  | .link _ _ => true
  | _ => false

/-- The links inside a link. -/
def linksInside : Node → List Node
  | .link _ cs => (cs.flatMap preorder).filter isLink
  | _ => []

/-- The links of a tree that lie inside other links. -/
def nestedLinks (tree : Node) : List Node := tree.preorder.flatMap linksInside

theorem nestedLinks_linkLiterals (tree : Node) :
    tree.linkLiterals.nestedLinks = tree.nestedLinks := by
  refine (linked_linkLiterals tree).flatMap_preorder (fun _ => rfl) (fun url value => ?_) ?_
  · show ([Node.text value].flatMap preorder).filter isLink = []
    rw [List.flatMap_singleton, preorder_eq]
    rfl
  · intro shell cs cs' hshell
    cases shell with
    | link url => exact absurd rfl (hshell url)
    | _ => rfl

/-- **Linking touches nothing but free text.** Links, images, code and a text on its own stay as
they are; every other node stays what it is, its texts are cut into texts and links that hold them,
and its other children are linked in their places. So the text in the leaves is the same, and no new
link lies in another link or has one in it. -/
theorem linkLiterals_frame (tree : Node) :
    Linked tree tree.linkLiterals ∧ tree.linkLiterals.leafText = tree.leafText
      ∧ tree.linkLiterals.nestedLinks = tree.nestedLinks :=
  ⟨linked_linkLiterals tree, leafText_linkLiterals tree, nestedLinks_linkLiterals tree⟩

end Bracketdown.Node
