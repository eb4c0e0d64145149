import Bracketdown.Markup.Writer

/-!
# What each node renders to

The writer hands one page from node to node, so on the face of it what a node adds could depend on
what stands on the page already. It does not: `rendering` gives the text of a node from the node
alone, one line for each kind, and `text_node` says that writing a node puts just this text behind
what is there. Everything that is proved about rendered markup starts from here.
-/

namespace Bracketdown.Markup

/-- Text between the two tags of a name. -/
def tagged (name inner : String) : String := openTag name ++ inner ++ closeTag name

mutual

/-- The text of a node. -/
def rendering : Node → String
  | .root cs => blockSeparator.intercalate (renderings cs)
  | .paragraph cs => String.join (renderings cs)
  | .heading depth cs => tagged (headingTag depth) (String.join (renderings cs))
  | .text value => value
  | .list ordered _ cs => tagged (listTag ordered) (String.join (renderings cs))
  | .listItem _ cs => itemMark ++ String.join (renderings cs)
  | .link url cs => openTag ("url=" ++ url) ++ String.join (renderings cs) ++ closeTag "url"
  | .image url _ => tagged "img" url
  | .strong cs => tagged "b" (String.join (renderings cs))
  | .emphasis cs => tagged "i" (String.join (renderings cs))
  | .blockquote cs => quoted (String.join (renderings cs))
  | .delete cs => tagged "strike" (String.join (renderings cs))
  | .inlineCode value => tagged "b" value
  | .code value _ => tagged "code" value
  | .other _ (some value) _ => value
  | .other _ none (some cs) => String.join (renderings cs)
  | .other _ none none => ""

/-- The texts of nodes. -/
def renderings : List Node → List String
  | [] => []
  | node :: nodes => rendering node :: renderings nodes

end

theorem renderings_eq_map (nodes : List Node) : renderings nodes = nodes.map rendering := by
  induction nodes with
  | nil => rfl
  | cons node nodes ih => rw [renderings, ih, List.map_cons]

theorem renderings_append (nodes nodes' : List Node) :
    renderings (nodes ++ nodes') = renderings nodes ++ renderings nodes' := by
  rw [renderings_eq_map, renderings_eq_map, renderings_eq_map, List.map_append]

theorem intercalate_cons (separator first : String) (rest : List String) :
    separator.intercalate (first :: rest)
      = first ++ String.join (rest.map (separator ++ ·)) := by
  induction rest generalizing first with
  | nil => rw [String.intercalate_singleton, List.map_nil, String.join_nil, String.append_empty]
  | cons second rest ih =>
    rw [String.intercalate_cons_cons, ih, List.map_cons, String.join_cons, String.append_assoc,
      String.append_assoc]

/-- Text between two tags, when what is between is written behind what is on the page. -/
theorem text_between {cs : List Node} {inner : String}
    (h : ∀ page : Page, (page.nodes cs).text = page.text ++ inner) (page : Page)
    (first last : String) :
    (((page.write first).nodes cs).write last).text = page.text ++ (first ++ inner ++ last) := by
  rw [Page.write, h, Page.write]
  simp only [String.append_assoc]

mutual

/-- **Writing a node puts its text behind what is on the page.** -/
theorem text_node (page : Page) (node : Node) :
    (page.node node).text = page.text ++ rendering node := by
  cases node with
  | root cs =>
    cases cs with
    | nil => exact (String.append_empty).symm
    | cons first rest =>
      rw [Page.node, text_blocks, text_node, rendering, renderings, intercalate_cons,
        String.append_assoc]
  | paragraph cs => exact text_nodes page cs
  | heading depth cs => exact text_between (fun page => text_nodes page cs) page _ _
  | text value => rfl
  | list ordered start cs => exact text_between (fun page => text_nodes page cs) page _ _
  | listItem checked cs =>
    rw [Page.node, text_nodes, Page.write, rendering, String.append_assoc]
  | link url cs => exact text_between (fun page => text_nodes page cs) page _ _
  | image url alt => rfl
  | strong cs => exact text_between (fun page => text_nodes page cs) page _ _
  | emphasis cs => exact text_between (fun page => text_nodes page cs) page _ _
  | blockquote cs =>
    rw [Page.node, text_nodes, String.empty_append, rendering]
  | delete cs => exact text_between (fun page => text_nodes page cs) page _ _
  | inlineCode value => rfl
  | code value lang => rfl
  | other kind value cs =>
    cases value with
    | some value => rfl
    | none =>
      cases cs with
      | some cs =>
        rw [Page.node, text_nodes, rendering]
        rfl
      | none => exact (String.append_empty).symm

theorem text_nodes (page : Page) (nodes : List Node) :
    (page.nodes nodes).text = page.text ++ String.join (renderings nodes) := by
  cases nodes with
  | nil => rw [Page.nodes, renderings, String.join_nil, String.append_empty]
  | cons node nodes =>
    rw [Page.nodes, text_nodes, text_node, renderings, String.join_cons, String.append_assoc]

theorem text_blocks (page : Page) (nodes : List Node) :
    (page.blocks nodes).text
      = page.text ++ String.join ((renderings nodes).map (blockSeparator ++ ·)) := by
  cases nodes with
  | nil => rw [Page.blocks, renderings, List.map_nil, String.join_nil, String.append_empty]
  | cons node nodes =>
    rw [Page.blocks, text_blocks, text_node, renderings, List.map_cons, String.join_cons,
      Page.write]
    simp only [String.append_assoc]

end

/-- The rendering of a document is its text. -/
theorem render_eq (node : Node) : render node = rendering node := by
  show (({} : Page).node node).text = rendering node
  rw [text_node, String.empty_append]

end Bracketdown.Markup
