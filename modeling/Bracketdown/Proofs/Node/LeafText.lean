import Bracketdown.Event.Tree
import Bracketdown.Link.Autolink
import Bracketdown.Proofs.Link.Scan
import Bracketdown.Proofs.Node.Joining
import Bracketdown.Proofs.Node.Tree

/-!
# The text in the leaves of a tree

`leafText` reads the text in the leaves of a tree from left to right: texts, code, the descriptions
of images and the values of nodes of other kinds. What is done to the nodes that events make leaves
it as it is: joining texts (`join_map_joinTexts`), wrapping runs in paragraphs
(`leafTexts_wrapRuns`) and linking addresses (`leafText_linkLiterals`).
-/

namespace Bracketdown.Node

/-- The text that a node itself holds. -/
def ownText : Node → String
  | .text value => value
  | .inlineCode value => value
  | .code value _ => value
  | .image _ alt => alt
  | .other _ value _ => value.getD ""
  | _ => ""

/-- The text in the leaves of a tree, in order. -/
def leafText (tree : Node) : String := String.join (tree.preorder.map ownText)

/-- The text in the leaves of trees, in order. -/
def leafTexts (nodes : List Node) : String := String.join (nodes.map leafText)

theorem join_flatMap {α : Type} (f : α → List String) (xs : List α) :
    String.join (xs.flatMap f) = String.join (xs.map fun x => String.join (f x)) := by
  induction xs with
  | nil => rfl
  | cons x xs ih =>
    rw [List.flatMap_cons, String.join_append, ih, List.map_cons, String.join_cons]

theorem leafText_eq (node : Node) : node.leafText = node.ownText ++ leafTexts node.children := by
  rw [leafText, preorder_eq, List.map_cons, String.join_cons, List.map_flatMap, join_flatMap]
  rfl

theorem leafTexts_append (nodes nodes' : List Node) :
    leafTexts (nodes ++ nodes') = leafTexts nodes ++ leafTexts nodes' := by
  rw [leafTexts, List.map_append, String.join_append]
  rfl

theorem leafTexts_cons (node : Node) (nodes : List Node) :
    leafTexts (node :: nodes) = node.leafText ++ leafTexts nodes := String.join_cons

theorem leafTexts_singleton (node : Node) : leafTexts [node] = node.leafText :=
  (leafTexts_cons node []).trans String.append_empty

theorem leafText_of_leaf {node : Node} (h : node.children = []) : node.leafText = node.ownText := by
  rw [leafText_eq, h]
  exact String.append_empty

/-- A node that holds no text itself has the text of its children. -/
theorem leafText_of_ownText {node : Node} (h : node.ownText = "") :
    node.leafText = leafTexts node.children := by
  rw [leafText_eq, h, String.empty_append]

/-! ## Joining and wrapping -/

section Joining

variable {f : Node → String} (hf : ∀ a b, f (.text (a ++ b)) = f (.text a) ++ f (.text b))

include hf

theorem join_map_consJoined (node : Node) (nodes : List Node) :
    String.join ((consJoined node nodes).map f) = f node ++ String.join (nodes.map f) := by
  unfold consJoined
  split
  next a b rest =>
    rw [List.map_cons, String.join_cons, hf, List.map_cons, String.join_cons, String.append_assoc]
  · rw [List.map_cons, String.join_cons]

/-- What is read off nodes one by one, and off texts in any pieces, does not change when texts are
joined. -/
theorem join_map_joinTexts (nodes : List Node) :
    String.join ((joinTexts nodes).map f) = String.join (nodes.map f) := by
  induction nodes with
  | nil => rfl
  | cons node nodes ih =>
    rw [joinTexts, join_map_consJoined hf, ih, List.map_cons, String.join_cons]

/-- A run is read off its paragraph. -/
theorem join_map_wrapRun (hparagraph : ∀ cs, f (.paragraph cs) = String.join (cs.map f))
    (run : List Node) : String.join ((wrapRun run).map f) = String.join (run.map f) := by
  unfold wrapRun
  split
  next hempty => rw [List.isEmpty_iff.mp hempty]
  · rw [List.map_singleton, String.join_cons, hparagraph, join_map_joinTexts hf]
    exact String.append_empty

/-- What is read off paragraphs as it is off their children does not change when runs are
wrapped. -/
theorem join_map_wrapRuns (hparagraph : ∀ cs, f (.paragraph cs) = String.join (cs.map f))
    (run : List Node) (pieces : List Piece) :
    String.join ((wrapRuns run pieces).map f)
      = String.join (run.reverse.map f) ++ String.join ((pieces.map Piece.node).map f) := by
  induction pieces generalizing run with
  | nil =>
    show String.join ((wrapRun run.reverse).map f) = String.join (run.reverse.map f) ++ ""
    rw [join_map_wrapRun hf hparagraph, String.append_empty]
  | cons piece pieces ih =>
    obtain ⟨isBlock, node⟩ := piece
    rw [List.map_cons, List.map_cons, String.join_cons]
    cases isBlock with
    | true =>
      show String.join ((wrapRun run.reverse ++ node :: wrapRuns [] pieces).map f) = _
      have hrest : String.join ((wrapRuns [] pieces).map f)
          = String.join ((pieces.map Piece.node).map f) := (ih []).trans String.empty_append
      rw [List.map_append, String.join_append, join_map_wrapRun hf hparagraph, List.map_cons,
        String.join_cons, hrest]
    | false =>
      show String.join ((wrapRuns (node :: run) pieces).map f) = _
      rw [ih, List.reverse_cons, List.map_append, String.join_append, List.map_singleton,
        String.join_cons, String.append_assoc]
      exact congrArg (_ ++ ·) (congrArg (· ++ _) String.append_empty)

end Joining

theorem leafText_text (value : String) : (Node.text value).leafText = value :=
  leafText_of_leaf rfl

theorem leafTexts_joinTexts (nodes : List Node) : leafTexts (joinTexts nodes) = leafTexts nodes := by
  refine join_map_joinTexts (fun a b => ?_) nodes
  rw [leafText_text, leafText_text, leafText_text]

theorem leafTexts_wrapRuns (run : List Node) (pieces : List Piece) :
    leafTexts (wrapRuns run pieces) = leafTexts run.reverse ++ leafTexts (pieces.map Piece.node) := by
  refine join_map_wrapRuns (fun a b => ?_) (fun cs => leafText_of_ownText rfl) run pieces
  rw [leafText_text, leafText_text, leafText_text]

/-! ## Linking -/

theorem join_map_ofList {α : Type} (f : α → List Char) (xs : List α) :
    String.join (xs.map fun x => String.ofList (f x)) = String.ofList (xs.flatMap f) := by
  induction xs with
  | nil => rfl
  | cons x xs ih =>
    rw [List.map_cons, String.join_cons, ih, List.flatMap_cons, String.ofList_append]

theorem leafText_toNode (segment : Link.Segment) :
    segment.toNode.leafText = String.ofList segment.text := by
  cases segment with
  | plain text => exact leafText_text _
  | literal url text =>
    have hlink : (Node.link (String.ofList url) [.text (String.ofList text)]).leafText
        = leafTexts [.text (String.ofList text)] := leafText_of_ownText rfl
    show (Node.link _ _).leafText = String.ofList text
    rw [hlink, leafTexts_singleton, leafText_text]

/-- Cutting a text into literals and the text between them loses nothing. -/
theorem leafTexts_splitText (value : String) : leafTexts (splitText value) = value := by
  have hnodes : leafTexts (splitText value)
      = String.join ((Link.split value.toList).map fun segment => String.ofList segment.text) := by
    rw [leafTexts, splitText, List.map_map]
    exact congrArg String.join (List.map_congr_left fun segment _ => leafText_toNode segment)
  rw [hnodes, join_map_ofList, Link.flatMap_text_split, String.ofList_toList]

theorem leafTexts_linkAll {nodes : List Node}
    (h : ∀ node ∈ nodes, node.linkLiterals.leafText = node.leafText) :
    leafTexts (linkAll nodes) = leafTexts nodes := by
  induction nodes with
  | nil => rfl
  | cons node nodes ih =>
    have hrest := ih fun n hn => h n (List.mem_cons_of_mem _ hn)
    rcases text_or_ne node with ⟨value, rfl⟩ | hnode
    · rw [linkAll, leafTexts_append, leafTexts_splitText, hrest, leafTexts_cons, leafText_text]
    · rw [linkAll_of_ne_text hnode, leafTexts_cons, h node (List.mem_cons_self ..), hrest,
        leafTexts_cons]

/-- Linking reaches into a node or leaves it as it is, and changes nothing but its children. -/
theorem linkLiterals_eq_self_or (node : Node) :
    node.linkLiterals = node
      ∨ node.linkLiterals.children = linkAll node.children
        ∧ node.linkLiterals.ownText = node.ownText := by
  cases node with
  | text | link | image | inlineCode | code => exact .inl rfl
  | other kind value cs =>
    cases cs with
    | none => exact .inl rfl
    | some cs => exact .inr ⟨rfl, rfl⟩
  | _ => exact .inr ⟨rfl, rfl⟩

theorem leafText_linkLiterals (tree : Node) : tree.linkLiterals.leafText = tree.leafText := by
  induction tree using childInduction with
  | step tree ih =>
    rcases tree.linkLiterals_eq_self_or with hself | ⟨hchildren, hown⟩
    · rw [hself]
    · rw [leafText_eq, hchildren, hown, leafTexts_linkAll ih, ← leafText_eq]

end Bracketdown.Node
