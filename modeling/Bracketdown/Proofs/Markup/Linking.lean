import Bracketdown.Link.Autolink
import Bracketdown.Proofs.Link.Scan
import Bracketdown.Proofs.Markup.Rendering
import Bracketdown.Proofs.Markup.Warnings
import Bracketdown.Proofs.Node.Joining
import Bracketdown.Proofs.Node.LeafText

/-!
# What linking does to the markup

Linking cuts texts in two or more, and puts a link around some of the parts. In the markup this
should be no more than some tags put in, and `render_linkLiterals` says that it is: the markup of
the linked document is that of the document with the tags of the new links around their texts, and
the warnings are the same.

Two rules of the writer look at more than one node and could tell the difference. The children of a
root are parted, so a text among them must not be cut; that is the one hypothesis. And a quote is a
spoiler because of the first two characters in it, which may belong to any number of texts. No
literal can take one of them in, or uncover them: it begins with neither of the two, and its tag
with a bracket (`WithTags.cons_left`, `WithTags.cons_right`).
-/

namespace Bracketdown

/-- The address and the text of a literal. -/
def Link.Segment.link? : Link.Segment → Option (List Char × List Char)
  | .plain _ => none
  | .literal url text => some (url, text)

namespace Node

/-- The links that linking makes in a text. -/
def literals (value : String) : List (List Char × List Char) :=
  (Link.split value.toList).filterMap (·.link?)

mutual

/-- The texts below a node that linking cuts and that are written. -/
def freeTexts : Node → List String
  | .root cs => freeTextsAll cs
  | .paragraph cs => freeTextsAll cs
  | .heading _ cs => freeTextsAll cs
  | .list _ _ cs => freeTextsAll cs
  | .listItem _ cs => freeTextsAll cs
  | .strong cs => freeTextsAll cs
  | .emphasis cs => freeTextsAll cs
  | .blockquote cs => freeTextsAll cs
  | .delete cs => freeTextsAll cs
  | .other _ (some _) _ => []
  | .other _ none (some cs) => freeTextsAll cs
  | .other _ none none => []
  | .text _ => []
  | .link _ _ => []
  | .image _ _ => []
  | .inlineCode _ => []
  | .code _ _ => []

/-- The texts among nodes and below them that linking cuts and that are written. -/
def freeTextsAll : List Node → List String
  | [] => []
  | .text value :: rest => value :: freeTextsAll rest
  | node :: rest => freeTexts node ++ freeTextsAll rest

end

/-- The links that linking makes below a node and that are written, in order. -/
def newLinks (node : Node) : List (List Char × List Char) := node.freeTexts.flatMap literals

/-- No text is a child of a root. -/
def KeepsBlocks : Node → Prop
  | .root cs => ∀ value, .text value ∉ cs
  | _ => True

theorem freeTextsAll_of_ne_text {node : Node} (h : ∀ value, node ≠ .text value)
    (nodes : List Node) : freeTextsAll (node :: nodes) = node.freeTexts ++ freeTextsAll nodes := by
  rw [freeTextsAll]
  exact h

end Node

namespace Markup

open Node (literals freeTexts freeTextsAll newLinks KeepsBlocks linkAll splitText)

/-- The second text is the first with the tags of links, one after the other, around their texts. -/
inductive WithTags : List (List Char × List Char) → List Char → List Char → Prop where
  | nil : WithTags [] [] []
  | char {links : List (List Char × List Char)} {before after : List Char} (c : Char)
    (h : WithTags links before after) : WithTags links (c :: before) (c :: after)
  | link {links : List (List Char × List Char)} {before after : List Char} (url text : List Char)
    (h : WithTags links before after) :
    WithTags ((url, text) :: links) (text ++ before)
      ((openTag ("url=" ++ String.ofList url)).toList ++ text ++ (closeTag "url").toList ++ after)

/-- The texts of links are not empty and begin as literals do. -/
def StartLiterals (links : List (List Char × List Char)) : Prop :=
  ∀ link ∈ links, ∃ d ds, link.2 = d :: ds ∧ Link.startsLiteral d = true

theorem startLiterals_flatMap (values : List String) : StartLiterals (values.flatMap literals) := by
  intro link hlink
  obtain ⟨value, -, hlink⟩ := List.mem_flatMap.mp hlink
  obtain ⟨segment, hsegment, heq⟩ := List.mem_filterMap.mp hlink
  cases segment with
  | plain text => cases heq
  | literal url text =>
    cases heq
    exact Link.exists_cons_of_mem_split hsegment

namespace WithTags

variable {links links' : List (List Char × List Char)} {before before' after after' : List Char}

theorem refl (s : List Char) : WithTags [] s s := by
  induction s with
  | nil => exact .nil
  | cons c s ih => exact .char c ih

theorem append (h : WithTags links before after) (h' : WithTags links' before' after') :
    WithTags (links ++ links') (before ++ before') (after ++ after') := by
  induction h with
  | nil => exact h'
  | char c _ ih => exact .char c ih
  | link url text _ ih =>
    rw [List.append_assoc, List.append_assoc]
    exact .link url text ih

/-- The same text may stand in front. -/
theorem behind (first : List Char) (h : WithTags links before after) :
    WithTags links (first ++ before) (first ++ after) :=
  (refl first).append h

/-- The same text may stand behind. -/
theorem infront (h : WithTags links before after) (last : List Char) :
    WithTags links (before ++ last) (after ++ last) := by
  have happend := h.append (refl last)
  rw [List.append_nil] at happend
  exact happend

/-- Tags may stand around both texts. -/
theorem tagged {before after : String} (name : String)
    (h : WithTags links before.toList after.toList) :
    WithTags links (tagged name before).toList (Markup.tagged name after).toList := by
  rw [Markup.tagged, Markup.tagged, String.toList_append, String.toList_append,
    String.toList_append, String.toList_append]
  exact (h.behind _).infront _

/-- A character that begins no literal stays in front. -/
theorem cons_left {c : Char} (hc : Link.startsLiteral c = false) (hlinks : StartLiterals links)
    (h : WithTags links (c :: before) after) : ∃ rest, after = c :: rest ∧ WithTags links before rest := by
  generalize hbefore : c :: before = whole at h
  cases h with
  | nil => cases hbefore
  | char d h =>
    cases hbefore
    exact ⟨_, rfl, h⟩
  | link url text h =>
    obtain ⟨d, ds, htext, hd⟩ := hlinks (url, text) (List.mem_cons_self ..)
    dsimp only at htext
    rw [htext, List.cons_append, List.cons.injEq] at hbefore
    rw [hbefore.1, hd] at hc
    cases hc

/-- A character that begins no tag was in front before. -/
theorem cons_right {c : Char} (hc : c ≠ '[') (h : WithTags links before (c :: after)) :
    ∃ rest, before = c :: rest ∧ WithTags links rest after := by
  generalize hafter : c :: after = whole at h
  cases h with
  | nil => cases hafter
  | char d h =>
    cases hafter
    exact ⟨_, rfl, h⟩
  | link url text h =>
    have hbracket : (openTag ("url=" ++ String.ofList url)).toList
        = '[' :: (("url=" ++ String.ofList url) ++ "]").toList := by
      simp [openTag]
    rw [hbracket, List.cons_append, List.cons_append, List.cons_append, List.cons.injEq] at hafter
    exact absurd hafter.1 hc

end WithTags

/-! ## Quotes -/

theorem hidden?_eq_some {inner hidden : String} :
    hidden? inner = some hidden ↔ inner.toList = '!' :: ' ' :: hidden.toList := by
  unfold hidden?
  constructor
  · intro h
    split at h
    next rest hinner =>
      cases h
      rw [hinner, String.toList_ofList]
    · cases h
  · intro h
    rw [h]
    exact congrArg some String.ofList_toList

section Quotes

variable {links : List (List Char × List Char)} {before after : String}
  (hlinks : StartLiterals links) (h : WithTags links before.toList after.toList)

include hlinks h

/-- Tags of links leave a spoiler mark where it is, and make none. -/
theorem WithTags.hidden? :
    hidden? before = none ∧ hidden? after = none
      ∨ ∃ b a : String, Markup.hidden? before = some b ∧ Markup.hidden? after = some a
        ∧ WithTags links b.toList a.toList := by
  cases hbefore : Markup.hidden? before with
  | some b =>
    rw [hidden?_eq_some.mp hbefore] at h
    obtain ⟨blank, hafter, hblank⟩ := h.cons_left (by decide) hlinks
    obtain ⟨rest, rfl, hrest⟩ := hblank.cons_left (by decide) hlinks
    refine .inr ⟨b, String.ofList rest, rfl, hidden?_eq_some.mpr ?_, ?_⟩
    · rw [hafter, String.toList_ofList]
    · rw [String.toList_ofList]
      exact hrest
  | none =>
    cases hafter : Markup.hidden? after with
    | none => exact .inl ⟨rfl, rfl⟩
    | some a =>
      rw [hidden?_eq_some.mp hafter] at h
      obtain ⟨blank, hcons, hblank⟩ := h.cons_right (by decide)
      obtain ⟨rest, rfl, -⟩ := hblank.cons_right (by decide)
      have hsome : Markup.hidden? before = some (String.ofList rest) := by
        rw [hidden?_eq_some, hcons, String.toList_ofList]
      rw [hbefore] at hsome
      cases hsome

/-- A quote stays a quote and a spoiler stays a spoiler. -/
theorem WithTags.isSome_hidden? :
    (Markup.hidden? after).isSome = (Markup.hidden? before).isSome := by
  rcases h.hidden? hlinks with ⟨hbefore, hafter⟩ | ⟨b, a, hbefore, hafter, -⟩
  · rw [hbefore, hafter]
  · rw [hbefore, hafter]
    rfl

theorem WithTags.quoted : WithTags links (quoted before).toList (Markup.quoted after).toList := by
  unfold Markup.quoted
  rcases h.hidden? hlinks with ⟨hbefore, hafter⟩ | ⟨b, a, hbefore, hafter, hrest⟩
  · rw [hbefore, hafter]
    exact h.tagged "quote"
  · rw [hbefore, hafter]
    exact hrest.tagged "spoiler"

end Quotes

/-! ## Whole trees -/

/-- The tags of the literals of a text are around their texts. -/
theorem withTags_toNode (segments : List Link.Segment) :
    WithTags (segments.filterMap (·.link?)) (segments.flatMap Link.Segment.text)
      (String.join (renderings (segments.map (·.toNode)))).toList := by
  induction segments with
  | nil => exact .nil
  | cons segment segments ih =>
    rw [List.map_cons, renderings, String.join_cons, String.toList_append, List.flatMap_cons]
    cases segment with
    | plain text =>
      have htext : (rendering (Link.Segment.plain text).toNode).toList = text :=
        String.toList_ofList
      rw [htext]
      exact ih.behind text
    | literal url text =>
      have hlink : rendering (Link.Segment.literal url text).toNode
          = openTag ("url=" ++ String.ofList url) ++ String.ofList text ++ closeTag "url" := by
        simp [Link.Segment.toNode, rendering, renderings]
      rw [hlink, String.toList_append, String.toList_append, String.toList_ofList]
      exact .link url text ih

theorem withTags_splitText (value : String) :
    WithTags (literals value) value.toList (String.join (renderings (splitText value))).toList := by
  have hsegments := withTags_toNode (Link.split value.toList)
  rw [Link.flatMap_text_split] at hsegments
  exact hsegments

section Children

variable {cs : List Node} (h : ∀ child ∈ cs,
  WithTags child.newLinks (rendering child).toList (rendering child.linkLiterals).toList)

include h

theorem withTags_join :
    WithTags ((freeTextsAll cs).flatMap literals) (String.join (renderings cs)).toList
      (String.join (renderings (linkAll cs))).toList := by
  induction cs with
  | nil => exact .nil
  | cons c cs ih =>
    have hrest := ih fun child hchild => h child (List.mem_cons_of_mem _ hchild)
    rw [renderings, String.join_cons, String.toList_append]
    rcases Node.text_or_ne c with ⟨value, rfl⟩ | hc
    · rw [linkAll, renderings_append, String.join_append, String.toList_append]
      exact (withTags_splitText value).append hrest
    · rw [Node.linkAll_of_ne_text hc, renderings, String.join_cons, String.toList_append,
        Node.freeTextsAll_of_ne_text hc, List.flatMap_append]
      exact (h c (List.mem_cons_self ..)).append hrest

theorem withTags_following (hblocks : ∀ value, .text value ∉ cs) :
    WithTags ((freeTextsAll cs).flatMap literals)
      (String.join ((renderings cs).map (blockSeparator ++ ·))).toList
      (String.join ((renderings (linkAll cs)).map (blockSeparator ++ ·))).toList := by
  induction cs with
  | nil => exact .nil
  | cons c cs ih =>
    have hc : ∀ value, c ≠ .text value := by
      rintro value rfl
      exact hblocks value (List.mem_cons_self ..)
    have hrest := ih (fun child hchild => h child (List.mem_cons_of_mem _ hchild))
      fun value hvalue => hblocks value (List.mem_cons_of_mem _ hvalue)
    rw [renderings, List.map_cons, String.join_cons, String.toList_append, String.toList_append,
      Node.linkAll_of_ne_text hc, renderings, List.map_cons, String.join_cons,
      String.toList_append, String.toList_append, Node.freeTextsAll_of_ne_text hc,
      List.flatMap_append]
    exact ((h c (List.mem_cons_self ..)).behind _).append hrest

theorem withTags_intercalate (hblocks : ∀ value, .text value ∉ cs) :
    WithTags ((freeTextsAll cs).flatMap literals)
      (blockSeparator.intercalate (renderings cs)).toList
      (blockSeparator.intercalate (renderings (linkAll cs))).toList := by
  cases cs with
  | nil => exact .nil
  | cons c cs =>
    have hc : ∀ value, c ≠ .text value := by
      rintro value rfl
      exact hblocks value (List.mem_cons_self ..)
    have hrest := withTags_following (fun child hchild => h child (List.mem_cons_of_mem _ hchild))
      fun value hvalue => hblocks value (List.mem_cons_of_mem _ hvalue)
    rw [renderings, intercalate_cons, Node.linkAll_of_ne_text hc, renderings, intercalate_cons,
      String.toList_append, String.toList_append, Node.freeTextsAll_of_ne_text hc,
      List.flatMap_append]
    exact (h c (List.mem_cons_self ..)).append hrest

end Children

/-- In the text of a document, linking puts in the tags of the new links. -/
theorem withTags_rendering {tree : Node} (hblocks : tree.Everywhere KeepsBlocks) :
    WithTags tree.newLinks (rendering tree).toList (rendering tree.linkLiterals).toList := by
  induction tree using Node.childInduction with
  | step tree ih =>
    obtain ⟨hhere, hbelow⟩ := Node.everywhere_iff.mp hblocks
    have hchildren : ∀ child ∈ tree.children,
        WithTags child.newLinks (rendering child).toList (rendering child.linkLiterals).toList :=
      fun child hchild => ih child hchild (hbelow child hchild)
    cases tree with
    | root cs => exact withTags_intercalate hchildren hhere
    | paragraph cs => exact withTags_join hchildren
    | heading depth cs => exact (withTags_join hchildren).tagged (headingTag depth)
    | text value => exact .refl _
    | list ordered start cs => exact (withTags_join hchildren).tagged (listTag ordered)
    | listItem checked cs =>
      have hinside := (withTags_join hchildren).behind itemMark.toList
      rw [← String.toList_append, ← String.toList_append] at hinside
      exact hinside
    | link url cs => exact .refl _
    | image url alt => exact .refl _
    | strong cs => exact (withTags_join hchildren).tagged "b"
    | emphasis cs => exact (withTags_join hchildren).tagged "i"
    | blockquote cs => exact (withTags_join hchildren).quoted (startLiterals_flatMap _)
    | delete cs => exact (withTags_join hchildren).tagged "strike"
    | inlineCode value => exact .refl _
    | code value lang => exact .refl _
    | other kind value cs =>
      cases value with
      | some value => cases cs <;> exact .refl _
      | none =>
        cases cs with
        | some cs => exact withTags_join hchildren
        | none => exact .refl _

/-! ## What is gathered from a tree -/

/-- The children of a linked node give what the children gave before, when texts and new links give
nothing. -/
theorem flatMap_linkAll {α : Type} {f : Node → List α} (htext : ∀ value, f (.text value) = [])
    (hlink : ∀ url value, f (.link url [.text value]) = []) {nodes : List Node}
    (h : ∀ node ∈ nodes, f node.linkLiterals = f node) :
    (linkAll nodes).flatMap f = nodes.flatMap f := by
  have hsplit : ∀ value, (splitText value).flatMap f = [] := by
    intro value
    rw [splitText, List.flatMap_map, List.flatMap_eq_nil_iff]
    intro segment _
    cases segment with
    | plain text => exact htext _
    | literal url text => exact hlink _ _
  induction nodes with
  | nil => rfl
  | cons node nodes ih =>
    have hrest := ih fun n hn => h n (List.mem_cons_of_mem _ hn)
    rcases Node.text_or_ne node with ⟨value, rfl⟩ | hnode
    · rw [linkAll, List.flatMap_append, hsplit, hrest, List.flatMap_cons, htext]
    · rw [Node.linkAll_of_ne_text hnode, List.flatMap_cons, h node (List.mem_cons_self ..), hrest,
        List.flatMap_cons]

/-- Linking reports nothing and hides nothing. -/
theorem warningsOf_linkLiterals (tree : Node) :
    warningsOf tree.linkLiterals = warningsOf tree := by
  have htext : ∀ value, warningsOf (.text value) = [] := fun value => warningsOf_eq _
  have hlink : ∀ url value, warningsOf (.link url [.text value]) = [] := by
    intro url value
    rw [warningsOf_eq]
    show [] ++ [Node.text value].flatMap warningsOf = []
    rw [List.flatMap_cons, htext]
    rfl
  induction tree using Node.childInduction with
  | step tree ih =>
    have hchildren := flatMap_linkAll htext hlink ih
    rw [warningsOf_eq, warningsOf_eq tree]
    cases tree with
    | text | link | image | inlineCode | code => rfl
    | other kind value cs =>
      cases value with
      | some value => cases cs <;> rfl
      | none =>
        cases cs with
        | some cs => exact congrArg (_ ++ ·) hchildren
        | none => rfl
    | _ => exact congrArg (_ ++ ·) hchildren

/-- Whether a node is a quote, and a spoiler among these. -/
def spoiler? : Node → Option Bool
  | .blockquote cs => some (hidden? (({} : Page).nodes cs).text).isSome
  | _ => none

/-- Which of the quotes of a tree are spoilers, in the order of the tree. -/
def quotes (tree : Node) : List Bool := tree.preorder.filterMap spoiler?

theorem quotes_eq (node : Node) :
    quotes node = (spoiler? node).toList ++ node.children.flatMap quotes :=
  Node.filterMap_preorder spoiler? node

theorem spoiler?_linkLiterals {node : Node} (hblocks : node.Everywhere KeepsBlocks) :
    spoiler? node.linkLiterals = spoiler? node := by
  cases node with
  | blockquote cs =>
    have hinside := withTags_join fun child hchild =>
      withTags_rendering ((Node.everywhere_iff.mp hblocks).2 child hchild)
    have hsome := hinside.isSome_hidden? (startLiterals_flatMap _)
    show some (hidden? (({} : Page).nodes (linkAll cs)).text).isSome
      = some (hidden? (({} : Page).nodes cs).text).isSome
    rw [text_nodes, text_nodes, String.empty_append, String.empty_append]
    exact congrArg some hsome
  | other kind value cs => cases cs <;> rfl
  | _ => rfl

theorem quotes_linkLiterals {tree : Node} (hblocks : tree.Everywhere KeepsBlocks) :
    quotes tree.linkLiterals = quotes tree := by
  have htext : ∀ value, quotes (.text value) = [] := fun value => quotes_eq _
  have hlink : ∀ url value, quotes (.link url [.text value]) = [] := by
    intro url value
    rw [quotes_eq]
    show [] ++ [Node.text value].flatMap quotes = []
    rw [List.flatMap_cons, htext]
    rfl
  induction tree using Node.childInduction with
  | step tree ih =>
    obtain ⟨-, hbelow⟩ := Node.everywhere_iff.mp hblocks
    have hchildren := flatMap_linkAll htext hlink fun child hchild =>
      ih child hchild (hbelow child hchild)
    rcases tree.linkLiterals_eq_self_or with hself | ⟨hlinked, -⟩
    · rw [hself]
    · rw [quotes_eq, quotes_eq tree, spoiler?_linkLiterals hblocks, hlinked, hchildren]

/-- **Linking only puts in tags.** If no text is a child of a root, linking changes no warning, puts
the tags of the new links around their texts and nothing else, and makes no spoiler of a quote and
no quote of a spoiler. -/
theorem render_linkLiterals (tree : Node) (hblocks : tree.Everywhere KeepsBlocks) :
    (emit tree.linkLiterals).warnings = (emit tree).warnings
      ∧ WithTags tree.newLinks (render tree).toList (render tree.linkLiterals).toList
      ∧ quotes tree.linkLiterals = quotes tree := by
  refine ⟨?_, ?_, quotes_linkLiterals hblocks⟩
  · rw [warnings_emit, warnings_emit, warningsOf_linkLiterals]
  · rw [render_eq, render_eq]
    exact withTags_rendering hblocks

/-- A spoiler with a link in it, and a rule. -/
theorem render_linkLiterals_spoiler :
    WithTags [("http://www.a.b".toList, "www.a.b".toList)]
        "[spoiler]see www.a.b[/spoiler]\n\n".toList
        "[spoiler]see [url=http://www.a.b]www.a.b[/url][/spoiler]\n\n".toList
      ∧ quotes (Node.root
          [.blockquote [.paragraph [.text "! see www.a.b"]], .bare "thematicBreak"]).linkLiterals
        = [true] := by
  let tree : Node := .root
    [.blockquote [.paragraph [.text "! see www.a.b"]], .bare "thematicBreak"]
  have hblocks : tree.Everywhere KeepsBlocks := by
    simp only [tree, Node.Everywhere, Node.preorder_eq, Node.children, Node.bare, List.flatMap_cons,
      List.flatMap_nil, Option.getD_none]
    simp [KeepsBlocks]
  have hlinks : tree.newLinks = [("http://www.a.b".toList, "www.a.b".toList)] := by
    decide +kernel
  have hbefore : render tree = "[spoiler]see www.a.b[/spoiler]\n\n" := by decide +kernel
  have hafter : render tree.linkLiterals
      = "[spoiler]see [url=http://www.a.b]www.a.b[/url][/spoiler]\n\n" := by
    decide +kernel
  have hspoiler : quotes tree = [true] := by decide +kernel
  obtain ⟨-, htags, hquotes⟩ := render_linkLiterals tree hblocks
  rw [hlinks, hbefore, hafter] at htags
  exact ⟨htags, hquotes.trans hspoiler⟩

end Markup

end Bracketdown
