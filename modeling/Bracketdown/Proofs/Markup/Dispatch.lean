import Bracketdown.Node.Content
import Bracketdown.Proofs.Markup.Rendering
import Bracketdown.Proofs.Markup.Warnings

/-!
# The table behind the writer

What a document renders to is settled by a table with one line for each kind of node (`rule`): a
string, or what the children render to, side by side or with something around it. What is reported
is settled by one sentence: the nodes of other kinds from the top down, but none that is below a
node of another kind with a value (`reported`).

The writer follows neither to the letter. It hands one page down the tree and back, puts tags and
warnings on it as it goes, and writes a quote on a page of its own which takes the warnings along
but not the text. `node_eq_tabled` says that it comes to the same: whatever page it is given, a node
puts the result of the table behind the text on it and its reports behind the warnings, and nothing
else happens to the page. So what a part of a document renders to never depends on what is in front
of it.
-/

namespace Bracketdown

namespace Node

/-- The nodes of a tree from the top down, each with the nodes that it is below. The nodes in
`above` are above the tree. -/
def placed (above : List Node) (node : Node) : List (List Node × Node) :=
  (above, node) :: node.children.attach.flatMap fun ⟨child, _⟩ => child.placed (node :: above)
termination_by sizeOf node
decreasing_by exact sizeOf_lt_of_mem_children ‹_›

theorem placed_eq (above : List Node) (node : Node) :
    node.placed above = (above, node) :: node.children.flatMap (placed (node :: above)) := by
  rw [placed]
  simp

end Node

namespace Markup

open Node (warning? writtenChildren placed)

/-- How a node is rendered, given what its children render to. -/
inductive Rule where
  /-- As a string, whatever its children are. -/
  | verbatim (text : String)
  /-- As what the children render to, with a separator between any two. -/
  | joined (separator : String)
  /-- As what the children render to, one after the other between two strings. -/
  | enclosed (first last : String)
  /-- As a spoiler or a quote: what the children render to, one after the other, decides. -/
  | quote
  deriving Repr, DecidableEq

/-- What a rule makes of the results of the children. -/
def Rule.result : Rule → List String → String
  | .verbatim text, _ => text
  | .joined separator, results => separator.intercalate results
  | .enclosed first last, results => first ++ String.join results ++ last
  | .quote, results =>
    let inner := String.join results
    if "! ".toList <+: inner.toList then
      "[spoiler]" ++ String.ofList (inner.toList.drop 2) ++ "[/spoiler]"
    else "[quote]" ++ inner ++ "[/quote]"

/-- The table. -/
def rule : Node → Rule
  | .root _ => .joined "\n\n"
  | .paragraph _ => .joined ""
  | .heading depth _ =>
    .enclosed ("[h" ++ toString depth.toNat ++ "]") ("[/h" ++ toString depth.toNat ++ "]")
  | .text value => .verbatim value
  | .list true _ _ => .enclosed "[olist]" "[/olist]"
  | .list false _ _ => .enclosed "[list]" "[/list]"
  | .listItem _ _ => .enclosed "[*]" ""
  | .link url _ => .enclosed ("[url=" ++ url ++ "]") "[/url]"
  | .image url _ => .verbatim ("[img]" ++ url ++ "[/img]")
  | .strong _ => .enclosed "[b]" "[/b]"
  | .emphasis _ => .enclosed "[i]" "[/i]"
  | .delete _ => .enclosed "[strike]" "[/strike]"
  | .inlineCode value => .verbatim ("[b]" ++ value ++ "[/b]")
  | .code value _ => .verbatim ("[code]" ++ value ++ "[/code]")
  | .blockquote _ => .quote
  | .other _ (some value) _ => .verbatim value
  | .other _ none _ => .joined ""

/-- What a node renders to by the table. -/
def tabled (node : Node) : String :=
  (rule node).result (node.children.attach.map fun ⟨child, _⟩ => tabled child)
termination_by sizeOf node
decreasing_by exact Node.sizeOf_lt_of_mem_children ‹_›

theorem tabled_eq (node : Node) : tabled node = (rule node).result (node.children.map tabled) := by
  rw [tabled]
  simp

/-- The warning about a node, if it is of another kind and below no node with a value. -/
def report? (place : List Node × Node) : Option Warning :=
  if place.1.any (·.value?.isSome) then none else place.2.warning?

/-- The warnings about a tree. -/
def reported (node : Node) : List Warning := (node.placed []).filterMap report?

/-! ## The text -/

theorem intercalate_empty (results : List String) : "".intercalate results = String.join results := by
  cases results with
  | nil => rfl
  | cons first rest =>
    have hnone : rest.map ("" ++ ·) = rest := by simp
    rw [intercalate_cons, hnone, String.join_cons]

/-- The mark is taken off a text that starts with it. -/
theorem hidden?_eq (inner : String) :
    hidden? inner = if "! ".toList <+: inner.toList then some (String.ofList (inner.toList.drop 2))
      else none := by
  unfold hidden?
  split
  next rest hinner =>
    have hmark : "! ".toList <+: '!' :: ' ' :: rest := ⟨rest, rfl⟩
    rw [hinner, if_pos hmark]
    rfl
  next hinner =>
    rw [if_neg]
    rintro ⟨rest, hrest⟩
    exact hinner rest hrest.symm

theorem quoted_join (results : List String) :
    quoted (String.join results) = Rule.quote.result results := by
  unfold quoted Rule.result
  rw [hidden?_eq]
  dsimp only
  by_cases hmark : "! ".toList <+: (String.join results).toList
  · rw [if_pos hmark, if_pos hmark]
    rfl
  · rw [if_neg hmark, if_neg hmark]
    rfl

theorem openTag_append (start rest : String) :
    openTag (start ++ rest) = "[" ++ start ++ rest ++ "]" := by
  rw [openTag, ← String.append_assoc]

theorem closeTag_append (start rest : String) :
    closeTag (start ++ rest) = "[/" ++ start ++ rest ++ "]" := by
  rw [closeTag, ← String.append_assoc]

/-- The table says what the writer writes. -/
theorem rendering_eq_tabled (node : Node) : rendering node = tabled node := by
  induction node using Node.childInduction with
  | step node ih =>
    have hchildren : renderings node.children = node.children.map tabled := by
      rw [renderings_eq_map]
      exact List.map_congr_left ih
    rw [tabled_eq, ← hchildren]
    cases node with
    | root cs => rfl
    | paragraph cs => exact (intercalate_empty _).symm
    | heading depth cs =>
      rw [rendering, tagged, headingTag, openTag_append, closeTag_append]
      rfl
    | text value => rfl
    | list ordered start cs => cases ordered <;> rfl
    | listItem checked cs => exact String.append_empty.symm
    | link url cs =>
      rw [rendering, openTag_append]
      rfl
    | image url alt => rfl
    | strong cs => rfl
    | emphasis cs => rfl
    | blockquote cs => exact quoted_join _
    | delete cs => rfl
    | inlineCode value => rfl
    | code value lang => rfl
    | other kind value cs =>
      cases value with
      | some value => rfl
      | none =>
        cases cs with
        | some cs => exact (intercalate_empty _).symm
        | none => rfl

/-! ## The warnings -/

/-- A node with a value is of another kind, and nothing below it is written. -/
theorem writtenChildren_eq (node : Node) :
    node.writtenChildren = if node.value?.isSome then [] else node.children := by
  cases node with
  | other kind value cs => cases value <;> rfl
  | _ => rfl

/-- Below a node with a value nothing is reported, elsewhere what is written. -/
theorem filterMap_report?_placed (node : Node) (above : List Node) :
    (node.placed above).filterMap report?
      = if above.any (·.value?.isSome) then [] else warningsOf node := by
  induction node using Node.childInduction generalizing above with
  | step node ih =>
    have hbelow : (node.children.flatMap (placed (node :: above))).filterMap report?
        = node.children.flatMap fun child =>
          if (node :: above).any (·.value?.isSome) then [] else warningsOf child := by
      rw [List.filterMap_flatMap]
      exact List.flatMap_congr fun child hchild => ih child hchild (node :: above)
    have hchildren : (node.children.flatMap (placed (node :: above))).filterMap report?
        = if above.any (·.value?.isSome) then [] else node.writtenChildren.flatMap warningsOf := by
      rw [hbelow, writtenChildren_eq, List.any_cons]
      by_cases habove : above.any (·.value?.isSome) = true
      · simp [habove]
      · by_cases hvalue : node.value?.isSome = true
        · simp [habove, hvalue]
        · simp [habove, hvalue]
    rw [Node.placed_eq, List.filterMap_cons, hchildren, warningsOf_eq, report?]
    by_cases habove : above.any (·.value?.isSome) = true
    · rw [if_pos habove, if_pos habove, if_pos habove]
    · rw [if_neg habove, if_neg habove, if_neg habove]
      cases node.warning? <;> rfl

/-- **The writer follows the table.** Whatever is on a page, a node puts what it renders to by the
table behind the text and the warnings about it behind the warnings. -/
theorem node_eq_tabled (page : Page) (node : Node) :
    page.node node
      = { text := page.text ++ tabled node, warnings := page.warnings ++ reported node } := by
  have htext : (page.node node).text = page.text ++ tabled node := by
    rw [text_node, rendering_eq_tabled]
  have hwarnings : (page.node node).warnings = page.warnings ++ reported node := by
    rw [warnings_node, reported, filterMap_report?_placed]
    rfl
  rw [← htext, ← hwarnings]

end Markup

end Bracketdown
