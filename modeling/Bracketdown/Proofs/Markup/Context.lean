import Bracketdown.Proofs.Markup.Rendering
import Bracketdown.Proofs.Node.Tree

/-!
# Rendering is compositional

The markup of a document depends on the nodes at a place only through the markup of these nodes. A
place is a `Context`: a document with a hole among the children of one of its nodes. The hole may be
filled with any list of nodes, and `render_fill_congr` says that two lists which render to the same
text give the same document.

Three kinds of node look at more than the markup of each child, and they do not all behave alike. A
quote reads the text of its children and nothing else, and a node with a value reads nothing of
them. A root puts a separator between any two, so it can tell one child from two that render to the
same; this is why a hole in a root must be filled with one node.
-/

namespace Bracketdown

namespace Node

/-- A document with a hole among the children of one of its nodes. -/
inductive Context where
  | hole (parent : Shell) (before after : List Node)
  | within (shell : Shell) (before : List Node) (inner : Context) (after : List Node)

namespace Context

/-- The node whose children have the hole. -/
def parent : Context → Shell
  | hole parent _ _ => parent
  | within _ _ inner _ => inner.parent

/-- The document with nodes put into the hole. -/
def fill : Context → List Node → Node
  | hole parent before after, nodes => parent.around (before ++ nodes ++ after)
  | within shell before inner after, nodes =>
    shell.around (before ++ [inner.fill nodes] ++ after)

end Context

/-- **Contexts reach every place**: whichever children of whichever node of a tree are taken out, a
context is left that has the hole there. -/
theorem exists_fill_eq (tree : Node) {node : Node} (hnode : node ∈ tree.preorder)
    {before nodes after : List Node} (hchildren : node.children = before ++ nodes ++ after)
    (hne : nodes ≠ []) :
    ∃ context : Context, context.parent.around node.children = node
      ∧ context.fill nodes = tree := by
  induction tree using childInduction with
  | step tree ih =>
    rcases mem_preorder.mp hnode with rfl | ⟨child, hchild, hbelow⟩
    · have hany : node.children ≠ [] := by simp [hchildren, hne]
      obtain ⟨shell, hshell⟩ := exists_around_eq hany
      refine ⟨.hole shell before after, hshell, ?_⟩
      rw [Context.fill, ← hchildren, hshell]
    · obtain ⟨inner, hparent, hfill⟩ := ih child hchild hbelow
      obtain ⟨first, last, hsplit⟩ := List.append_of_mem hchild
      obtain ⟨shell, hshell⟩ := exists_around_eq (List.ne_nil_of_mem hchild)
      refine ⟨.within shell first inner last, hparent, ?_⟩
      rw [Context.fill, hfill, List.append_assoc, List.singleton_append, ← hsplit, hshell]

/-! ## What the markup does not show -/

mutual

/-- A node without what the markup does not show: the number of a list's first item, the state of an
item's box, the description of an image and the language of a code block. -/
def shown : Node → Node
  | .root cs => .root (shownAll cs)
  | .paragraph cs => .paragraph (shownAll cs)
  | .heading depth cs => .heading depth (shownAll cs)
  | .text value => .text value
  | .list ordered _ cs => .list ordered none (shownAll cs)
  | .listItem _ cs => .listItem none (shownAll cs)
  | .link url cs => .link url (shownAll cs)
  | .image url _ => .image url ""
  | .strong cs => .strong (shownAll cs)
  | .emphasis cs => .emphasis (shownAll cs)
  | .blockquote cs => .blockquote (shownAll cs)
  | .delete cs => .delete (shownAll cs)
  | .inlineCode value => .inlineCode value
  | .code value _ => .code value none
  | .other kind value (some cs) => .other kind value (some (shownAll cs))
  | .other kind value none => .other kind value none

/-- The nodes without what the markup does not show. -/
def shownAll : List Node → List Node
  | [] => []
  | node :: rest => shown node :: shownAll rest

end

end Node

namespace Markup

open Node (Shell Context shown shownAll)

theorem map_render (nodes : List Node) : nodes.map render = renderings nodes := by
  rw [renderings_eq_map]
  exact List.map_congr_left fun node _ => render_eq node

/-! ## One level -/

/-- The markup of a node depends on its children only through their markup. -/
theorem rendering_around_congr (shell : Shell) {cs cs' : List Node}
    (h : renderings cs = renderings cs') :
    rendering (shell.around cs) = rendering (shell.around cs') := by
  cases shell with
  | other kind value => cases value <;> simp only [Shell.around, rendering, h]
  | _ => simp only [Shell.around, rendering, h]

/-- Except in a root it is the text of all children together that counts. -/
theorem rendering_around_join_congr {shell : Shell} (hroot : shell ≠ .root) {cs cs' : List Node}
    (h : String.join (renderings cs) = String.join (renderings cs')) :
    rendering (shell.around cs) = rendering (shell.around cs') := by
  cases shell with
  | root => exact absurd rfl hroot
  | other kind value => cases value <;> simp only [Shell.around, rendering, h]
  | _ => simp only [Shell.around, rendering, h]

theorem join_renderings_append (before nodes after : List Node) :
    String.join (renderings (before ++ nodes ++ after))
      = String.join (renderings before) ++ String.join (renderings nodes)
        ++ String.join (renderings after) := by
  rw [renderings_append, renderings_append, String.join_append, String.join_append]

/-- Two nodes that render alike are alike to any separator. -/
theorem renderings_eq_of_length_one {nodes nodes' : List Node} (h : nodes.length = 1)
    (h' : nodes'.length = 1)
    (hjoin : String.join (renderings nodes) = String.join (renderings nodes')) :
    renderings nodes = renderings nodes' := by
  obtain ⟨node, rfl⟩ := List.length_eq_one_iff.mp h
  obtain ⟨node', rfl⟩ := List.length_eq_one_iff.mp h'
  simp only [renderings, String.join_cons, String.join_nil, String.append_empty] at hjoin ⊢
  rw [hjoin]

/-! ## Any depth -/

/-- Nodes with the same text may stand for each other. The induction is on the context: the hole is
where separators matter, and every level above it has one child that renders as before. -/
theorem rendering_fill_congr (context : Context) {nodes nodes' : List Node}
    (hparent : context.parent ≠ .root ∨ nodes.length = 1 ∧ nodes'.length = 1)
    (h : String.join (renderings nodes) = String.join (renderings nodes')) :
    rendering (context.fill nodes) = rendering (context.fill nodes') := by
  induction context with
  | hole parent before after =>
    rcases hparent with hroot | ⟨hone, hone'⟩
    · refine rendering_around_join_congr hroot ?_
      rw [join_renderings_append, join_renderings_append, h]
    · refine rendering_around_congr parent ?_
      rw [renderings_append, renderings_append, renderings_append, renderings_append,
        renderings_eq_of_length_one hone hone' h]
  | within shell before inner after ih =>
    refine rendering_around_congr shell ?_
    simp only [renderings_append, renderings, ih hparent]

mutual

theorem rendering_shown (node : Node) : rendering node.shown = rendering node := by
  cases node with
  | other kind value cs =>
    cases cs with
    | some cs => cases value <;> simp only [shown, rendering, renderings_shownAll cs]
    | none => rfl
  | text | image | inlineCode | code => rfl
  | root cs | paragraph cs | heading _ cs | list _ _ cs | listItem _ cs | link _ cs | strong cs
  | emphasis cs | blockquote cs | delete cs =>
    simp only [shown, rendering, renderings_shownAll cs]

theorem renderings_shownAll (nodes : List Node) :
    renderings (shownAll nodes) = renderings nodes := by
  cases nodes with
  | nil => rfl
  | cons node nodes => rw [shownAll, renderings, rendering_shown, renderings_shownAll, renderings]

end

/-- **Rendering is compositional.** Nodes that render to the same text may stand for each other at
any place of a document, in a root as long as one node stands for one node. So the document renders
the same whatever is not shown in it, wherever a text is cut in two, and wherever nodes are put into
a paragraph, the last two except among the children of a root. -/
theorem render_fill_congr :
    (∀ (context : Context) (nodes nodes' : List Node),
      context.parent ≠ .root ∨ nodes.length = 1 ∧ nodes'.length = 1 →
      String.join (nodes.map render) = String.join (nodes'.map render) →
      render (context.fill nodes) = render (context.fill nodes'))
    ∧ (∀ tree tree' : Node, tree.shown = tree'.shown → render tree = render tree')
    ∧ ∀ context : Context, context.parent ≠ .root →
      (∀ a b : String,
        render (context.fill [.text a, .text b]) = render (context.fill [.text (a ++ b)]))
      ∧ ∀ nodes : List Node,
        render (context.fill [.paragraph nodes]) = render (context.fill nodes) := by
  refine ⟨?_, ?_, ?_⟩
  · intro context nodes nodes' hparent h
    rw [map_render, map_render] at h
    rw [render_eq, render_eq]
    exact rendering_fill_congr context hparent h
  · intro tree tree' h
    rw [render_eq, render_eq, ← rendering_shown tree, h, rendering_shown]
  · intro context hroot
    refine ⟨fun a b => ?_, fun nodes => ?_⟩
    · rw [render_eq, render_eq]
      refine rendering_fill_congr context (.inl hroot) ?_
      simp only [renderings, rendering, String.join_cons, String.join_nil, String.append_empty]
    · rw [render_eq, render_eq]
      refine rendering_fill_congr context (.inl hroot) ?_
      rw [renderings, renderings, rendering, String.join_cons, String.join_nil,
        String.append_empty]

/-- The mark of a spoiler cut in two, one half in a paragraph, and a numbered list with a box and an
image. -/
theorem render_fill_congr_spoiler :
    (String.join ([Node.paragraph [.text "!"], .text " end"].map render)
        = String.join ([Node.text "! end"].map render)
      ∧ (Context.within .root [.bare "thematicBreak"] (.hole .blockquote [] []) []).parent ≠ .root
      ∧ render ((Context.within .root [.bare "thematicBreak"] (.hole .blockquote [] []) []).fill
            [.paragraph [.text "!"], .text " end"])
          = render ((Context.within .root [.bare "thematicBreak"] (.hole .blockquote [] []) []).fill
            [.text "! end"]))
    ∧ (shown (.list true (some 7) [.listItem (some true) [.image "u" "alt"]])
        = shown (.list true none [.listItem none [.image "u" ""]])
      ∧ render (.list true (some 7) [.listItem (some true) [.image "u" "alt"]])
        = render (.list true none [.listItem none [.image "u" ""]])) := by
  obtain ⟨hcongr, hshown, -⟩ := render_fill_congr
  have hjoin : String.join ([Node.paragraph [.text "!"], .text " end"].map render)
      = String.join ([Node.text "! end"].map render) := by decide +kernel
  have hparent : (Context.within .root [.bare "thematicBreak"] (.hole .blockquote [] []) []).parent
      ≠ .root := by decide
  exact ⟨⟨hjoin, hparent, hcongr _ _ _ (.inl hparent) hjoin⟩, rfl, hshown _ _ rfl⟩

/-- In a root two texts are not one. -/
example : render (.root [.text "a", .text "b"]) ≠ render (.root [.text "ab"]) := by decide +kernel

end Markup

end Bracketdown
