import Bracketdown.Proofs.Markup.Rendering
import Bracketdown.Proofs.Node.Tree

/-!
# The tags in rendered markup

Rendered markup is read back here as a reader of the markup has to: one character after the other,
knowing nothing about the tree. `forest?` takes apart the tags and the text between them, matches
every closing tag with the innermost open one, which must have its name, and gives what is left
when the text between is forgotten: a forest of pairs of tags and of item marks. A bracket that is
not part of a tag, a closing tag that does not match and a tag that stays open all make it fail.

`forest_render` says that for a tree whose strings hold no brackets this gives `outline`, the
forest that can be told from the tree alone. The argument is compositional: `Reads` is what a piece
of markup does to any state of the reader, and each way in which the writer puts texts together is
one lemma about `Reads`. The writer cuts a mark off the text of a quote that is a spoiler; since
the mark has no brackets, cutting it off changes nothing (`Reads.of_cons`).
-/

namespace Bracketdown.Markup

/-- What stands in markup besides text: item marks, and pairs of tags with what is between them. A
pair carries the text in the brackets of its opening tag. -/
inductive Tree where
  | mark
  | pair (label : String) (inside : List Tree)
  deriving Repr

/-! ## Reading markup -/

/-- The name that closes a tag: the part in front of the equals sign, if there is one. -/
def tagName (label : String) : String := String.ofList (label.toList.takeWhile (· ≠ '='))

/-- A reader of markup: the text of the tag it is in, last character first; what it has found since
the innermost open tag, last first; and the labels of the open tags, innermost first, each with what
was found before it. -/
structure Outliner where
  tag : Option (List Char) := none
  found : List Tree := []
  opened : List (String × List Tree) := []

namespace Outliner

/-- The reader behind a tag with the given text. -/
def take (outliner : Outliner) : List Char → Option Outliner
  | ['*'] => some { outliner with tag := none, found := .mark :: outliner.found }
  | '/' :: name =>
    match outliner.opened with
    | [] => none
    | (label, before) :: outer =>
      if tagName label = String.ofList name then
        some { found := .pair label outliner.found.reverse :: before, opened := outer }
      else none
  | label => some { opened := (String.ofList label, outliner.found) :: outliner.opened }

/-- The reader behind one more character. -/
def step (outliner : Outliner) (c : Char) : Option Outliner :=
  match outliner.tag with
  | none =>
    if c = '[' then some { outliner with tag := some [] }
    else if c = ']' then none
    else some outliner
  | some tag =>
    if c = ']' then outliner.take tag.reverse
    else if c = '[' then none
    else some { outliner with tag := some (c :: tag) }

end Outliner

/-- The tags in a text, if it is well nested. -/
def forest? (text : List Char) : Option (List Tree) :=
  (text.foldlM Outliner.step {}).bind fun outliner =>
    if outliner.tag.isNone && outliner.opened.isEmpty then some outliner.found.reverse else none

/-! ## The tags of a tree -/

mutual

/-- The tags a node is written with. A quote is a spoiler if what is written for its children says
so. Roots, paragraphs and nodes of other kinds have none of their
own; below a node of another kind with a value nothing is written. -/
def outline : Node → List Tree
  | .root cs => outlines cs
  | .paragraph cs => outlines cs
  | .heading depth cs => [.pair (headingTag depth) (outlines cs)]
  | .text _ => []
  | .list ordered _ cs => [.pair (listTag ordered) (outlines cs)]
  | .listItem _ cs => .mark :: outlines cs
  | .link url cs => [.pair ("url=" ++ url) (outlines cs)]
  | .image _ _ => [.pair "img" []]
  | .strong cs => [.pair "b" (outlines cs)]
  | .emphasis cs => [.pair "i" (outlines cs)]
  | .blockquote cs =>
    [.pair (if (hidden? (({} : Page).nodes cs).text).isSome then "spoiler" else "quote")
      (outlines cs)]
  | .delete cs => [.pair "strike" (outlines cs)]
  | .inlineCode _ => [.pair "b" []]
  | .code _ _ => [.pair "code" []]
  | .other _ (some _) _ => []
  | .other _ none (some cs) => outlines cs
  | .other _ none none => []

/-- The tags that nodes are written with. -/
def outlines : List Node → List Tree
  | [] => []
  | node :: nodes => outline node ++ outlines nodes

end

mutual

/-- The strings of a tree that are written as they are. -/
def writtenStrings : Node → List String
  | .root cs => writtenStringsAll cs
  | .paragraph cs => writtenStringsAll cs
  | .heading _ cs => writtenStringsAll cs
  | .text value => [value]
  | .list _ _ cs => writtenStringsAll cs
  | .listItem _ cs => writtenStringsAll cs
  | .link url cs => url :: writtenStringsAll cs
  | .image url _ => [url]
  | .strong cs => writtenStringsAll cs
  | .emphasis cs => writtenStringsAll cs
  | .blockquote cs => writtenStringsAll cs
  | .delete cs => writtenStringsAll cs
  | .inlineCode value => [value]
  | .code value _ => [value]
  | .other _ (some value) _ => [value]
  | .other _ none (some cs) => writtenStringsAll cs
  | .other _ none none => []

/-- The strings of nodes that are written as they are. -/
def writtenStringsAll : List Node → List String
  | [] => []
  | node :: nodes => writtenStrings node ++ writtenStringsAll nodes

end

/-! ## Characters and tags -/

/-- A string without brackets. -/
def Bracketless (s : String) : Prop := '[' ∉ s.toList ∧ ']' ∉ s.toList

instance (s : String) : Decidable (Bracketless s) :=
  inferInstanceAs (Decidable ('[' ∉ s.toList ∧ ']' ∉ s.toList))

namespace Outliner

variable {text : List Char} (found : List Tree) (opened : List (String × List Tree))

theorem foldlM_plain (hopen : '[' ∉ text) (hclose : ']' ∉ text) :
    text.foldlM step ⟨none, found, opened⟩ = some ⟨none, found, opened⟩ := by
  induction text with
  | nil => rfl
  | cons c text ih =>
    rw [List.mem_cons, not_or] at hopen hclose
    rw [List.foldlM_cons, step]
    dsimp only
    rw [if_neg (Ne.symm hopen.1), if_neg (Ne.symm hclose.1)]
    exact ih hopen.2 hclose.2

theorem foldlM_inside (hopen : '[' ∉ text) (hclose : ']' ∉ text) (before : List Char) :
    text.foldlM step ⟨some before, found, opened⟩
      = some ⟨some (text.reverse ++ before), found, opened⟩ := by
  induction text generalizing before with
  | nil => rfl
  | cons c text ih =>
    rw [List.mem_cons, not_or] at hopen hclose
    rw [List.foldlM_cons, step]
    dsimp only
    rw [if_neg (Ne.symm hclose.1), if_neg (Ne.symm hopen.1)]
    show List.foldlM step _ text = _
    rw [ih hopen.2 hclose.2, List.reverse_cons, List.append_assoc, List.singleton_append]

/-- What is in `tag` does not matter to a tag that ends. -/
theorem take_eq (tag : Option (List Char)) (text : List Char) :
    take ⟨tag, found, opened⟩ text = take ⟨none, found, opened⟩ text := by
  unfold take
  split <;> rfl

/-- A tag is read as its text says. -/
theorem foldlM_tag (hopen : '[' ∉ text) (hclose : ']' ∉ text) (rest : List Char) :
    ('[' :: (text ++ ']' :: rest)).foldlM step ⟨none, found, opened⟩
      = take ⟨none, found, opened⟩ text >>= rest.foldlM step := by
  rw [List.foldlM_cons]
  show List.foldlM step ⟨some [], found, opened⟩ _ = _
  rw [List.foldlM_append, foldlM_inside found opened hopen hclose]
  show take ⟨some (text.reverse ++ []), found, opened⟩ (text.reverse ++ []).reverse
    >>= rest.foldlM step = _
  rw [take_eq, List.append_nil, List.reverse_reverse]

/-- A closing tag ends the innermost pair if it has its name. -/
theorem take_close {label name : String} (h : tagName label = name) (before : List Tree) :
    take ⟨none, found, (label, before) :: opened⟩ ('/' :: name.toList)
      = some ⟨none, .pair label found.reverse :: before, opened⟩ := by
  show (if tagName label = String.ofList name.toList then _ else none) = _
  rw [String.ofList_toList, if_pos h]

end Outliner

/-- The text of an opening tag: it has no brackets, is not the item mark, and starts with no
slash. -/
structure IsLabel (label : String) : Prop where
  bracketless : Bracketless label
  ne_mark : label.toList ≠ ['*']
  ne_slash : ∀ rest, label.toList ≠ '/' :: rest

/-- An opening tag opens a pair. -/
theorem Outliner.take_open {label : String} (h : IsLabel label) (found : List Tree)
    (opened : List (String × List Tree)) :
    take ⟨none, found, opened⟩ label.toList = some ⟨none, [], (label, found) :: opened⟩ := by
  unfold take
  split
  next hmark => exact absurd hmark h.ne_mark
  next hslash => exact absurd hslash (h.ne_slash _)
  · rw [String.ofList_toList]

/-- A name of letters and digits. -/
def IsName (name : String) : Prop := name.toList.all Char.isAlphanum = true

instance (name : String) : Decidable (IsName name) :=
  inferInstanceAs (Decidable (name.toList.all Char.isAlphanum = true))

theorem IsName.not_mem {name : String} (h : IsName name) {c : Char} (hc : c.isAlphanum = false) :
    c ∉ name.toList := by
  intro hmem
  rw [List.all_eq_true.mp h c hmem] at hc
  cases hc

theorem IsName.bracketless {name : String} (h : IsName name) : Bracketless name :=
  ⟨h.not_mem (by decide), h.not_mem (by decide)⟩

theorem IsName.isLabel {name : String} (h : IsName name) : IsLabel name where
  bracketless := h.bracketless
  ne_mark := by
    intro hmark
    exact h.not_mem (c := '*') (by decide) (by rw [hmark]; exact List.mem_cons_self ..)
  ne_slash := by
    intro rest hslash
    exact h.not_mem (c := '/') (by decide) (by rw [hslash]; exact List.mem_cons_self ..)

theorem IsName.tagName_eq {name : String} (h : IsName name) : tagName name = name := by
  have hall : ∀ c ∈ name.toList, decide (c ≠ '=') = true := by
    intro c hc
    refine decide_eq_true fun heq => ?_
    subst heq
    exact h.not_mem (by decide) hc
  have htake := @List.takeWhile_append_of_pos _ _ name.toList [] hall
  rw [List.takeWhile_nil, List.append_nil] at htake
  rw [tagName, htake, String.ofList_toList]

/-! ## What a piece of markup does -/

/-- Read between tags, the text adds these trees to what was found, and leaves the reader between
tags with the same tags open. -/
def Reads (text : List Char) (trees : List Tree) : Prop :=
  ∀ (found : List Tree) (opened : List (String × List Tree)),
    text.foldlM Outliner.step ⟨none, found, opened⟩ = some ⟨none, trees.reverse ++ found, opened⟩

namespace Reads

theorem nil : Reads [] [] := fun _ _ => rfl

theorem append {text text' : List Char} {trees trees' : List Tree} (h : Reads text trees)
    (h' : Reads text' trees') : Reads (text ++ text') (trees ++ trees') := by
  intro found opened
  rw [List.foldlM_append, h found opened]
  show List.foldlM Outliner.step _ text' = _
  rw [h' _ opened, List.reverse_append, List.append_assoc]

/-- A string without brackets is only text. -/
theorem plain {s : String} (h : Bracketless s) : Reads s.toList [] := by
  intro found opened
  exact Outliner.foldlM_plain found opened h.1 h.2

/-- A character that is no bracket makes no difference in front. -/
theorem of_cons {c : Char} {text : List Char} {trees : List Tree} (h : Reads (c :: text) trees)
    (hopen : c ≠ '[') (hclose : c ≠ ']') : Reads text trees := by
  intro found opened
  have hread := h found opened
  rw [List.foldlM_cons, Outliner.step] at hread
  dsimp only at hread
  rw [if_neg hopen, if_neg hclose] at hread
  exact hread

theorem mark : Reads itemMark.toList [.mark] := fun _ _ => rfl

/-- A pair of tags is one tree around what is between the tags. -/
theorem pair {label name inner : String} {trees : List Tree} (hlabel : IsLabel label)
    (hname : tagName label = name) (hbracketless : Bracketless name)
    (h : Reads inner.toList trees) :
    Reads (openTag label ++ inner ++ closeTag name).toList [.pair label trees] := by
  intro found opened
  have htext : (openTag label ++ inner ++ closeTag name).toList
      = '[' :: (label.toList ++ ']' :: (inner.toList ++ '[' :: ('/' :: name.toList ++ ']' :: [])))
    := by simp [openTag, closeTag, String.toList_append]
  have hslash : ∀ c, c ≠ '/' → c ∉ name.toList → c ∉ '/' :: name.toList := by
    intro c hne hmem
    rw [List.mem_cons, not_or]
    exact ⟨hne, hmem⟩
  rw [htext, Outliner.foldlM_tag found opened hlabel.bracketless.1 hlabel.bracketless.2,
    Outliner.take_open hlabel]
  show List.foldlM Outliner.step _ (inner.toList ++ _) = _
  rw [List.foldlM_append, h]
  refine (Outliner.foldlM_tag _ _ (hslash _ (by decide) hbracketless.1)
    (hslash _ (by decide) hbracketless.2) []).trans ?_
  rw [Outliner.take_close _ _ hname, List.append_nil, List.reverse_reverse]
  rfl

/-- The same for a name that is its own label. -/
theorem tagged {name inner : String} {trees : List Tree} (hname : IsName name)
    (h : Reads inner.toList trees) : Reads (tagged name inner).toList [.pair name trees] :=
  pair hname.isLabel hname.tagName_eq hname.bracketless h

end Reads

/-! ## Whole trees -/

theorem isName_headingTag (depth : UInt8) : IsName (headingTag depth) := by
  unfold IsName
  rw [headingTag, String.toList_append, List.all_append, Nat.toString_eq_repr, Nat.toList_repr,
    Bool.and_eq_true]
  refine ⟨by decide, List.all_eq_true.mpr fun c hc => ?_⟩
  unfold Char.isAlphanum
  rw [Nat.isDigit_of_mem_toDigits (by decide) (by decide) hc, Bool.or_true]

theorem isName_listTag (ordered : Bool) : IsName (listTag ordered) := by
  cases ordered <;> decide

theorem isLabel_link {url : String} (h : Bracketless url) : IsLabel ("url=" ++ url) where
  bracketless := by
    unfold Bracketless
    rw [String.toList_append, List.mem_append, List.mem_append, not_or, not_or]
    exact ⟨⟨by decide, h.1⟩, ⟨by decide, h.2⟩⟩
  ne_mark := by
    rw [String.toList_append]
    intro hmark
    cases hmark
  ne_slash := by
    rw [String.toList_append]
    intro rest hslash
    cases hslash

theorem tagName_link (url : String) : tagName ("url=" ++ url) = "url" := by
  rw [tagName, String.toList_append]
  rfl

/-- Quoted text is a spoiler or a quote around the same trees. -/
theorem Reads.quoted {inner : String} {trees : List Tree} (h : Reads inner.toList trees) :
    Reads (quoted inner).toList
      [.pair (if (hidden? inner).isSome then "spoiler" else "quote") trees] := by
  unfold Markup.quoted
  cases hhidden : hidden? inner with
  | none => exact Reads.tagged (by decide) h
  | some hidden =>
    unfold hidden? at hhidden
    split at hhidden
    next rest hinner =>
      cases hhidden
      -- The mark is two characters, neither of them a bracket.
      rw [hinner] at h
      have hrest : Reads (String.ofList rest).toList trees := by
        rw [String.toList_ofList]
        exact (h.of_cons (by decide) (by decide)).of_cons (by decide) (by decide)
      exact Reads.tagged (by decide) hrest
    · cases hhidden

section Children

variable {cs : List Node} (h : ∀ child ∈ cs, Reads (rendering child).toList (outline child))

include h

theorem reads_join : Reads (String.join (renderings cs)).toList (outlines cs) := by
  induction cs with
  | nil => exact Reads.nil
  | cons c cs ih =>
    rw [renderings, String.join_cons, String.toList_append]
    exact (h c (List.mem_cons_self ..)).append
      (ih fun child hchild => h child (List.mem_cons_of_mem _ hchild))

theorem reads_following :
    Reads (String.join ((renderings cs).map (blockSeparator ++ ·))).toList (outlines cs) := by
  induction cs with
  | nil => exact Reads.nil
  | cons c cs ih =>
    rw [renderings, List.map_cons, String.join_cons, String.toList_append, String.toList_append]
    have hseparator : Reads blockSeparator.toList [] := Reads.plain (by decide)
    exact (hseparator.append (h c (List.mem_cons_self ..))).append
      (ih fun child hchild => h child (List.mem_cons_of_mem _ hchild))

theorem reads_intercalate :
    Reads (blockSeparator.intercalate (renderings cs)).toList (outlines cs) := by
  cases cs with
  | nil =>
    rw [renderings, String.intercalate_nil]
    exact Reads.nil
  | cons c cs =>
    rw [renderings, intercalate_cons, String.toList_append]
    exact (h c (List.mem_cons_self ..)).append
      (reads_following fun child hchild => h child (List.mem_cons_of_mem _ hchild))

end Children

theorem mem_writtenStringsAll {s : String} {node : Node} {nodes : List Node} (hnode : node ∈ nodes)
    (hs : s ∈ writtenStrings node) : s ∈ writtenStringsAll nodes := by
  induction nodes with
  | nil => exact absurd hnode List.not_mem_nil
  | cons first nodes ih =>
    rw [writtenStringsAll, List.mem_append]
    rcases List.mem_cons.mp hnode with rfl | hnode
    · exact .inl hs
    · exact .inr (ih hnode)

/-- What is written for a node holds the tags of its outline. -/
theorem reads_rendering (node : Node) :
    (∀ s ∈ writtenStrings node, Bracketless s) →
      Reads (rendering node).toList (outline node) := by
  induction node using Node.childInduction with
  | step node ih =>
    intro hplain
    have hchildren : (∀ s ∈ writtenStringsAll node.children, Bracketless s) →
        ∀ child ∈ node.children, Reads (rendering child).toList (outline child) :=
      fun hall child hchild => ih child hchild fun s hs => hall s (mem_writtenStringsAll hchild hs)
    cases node with
    | root cs => exact reads_intercalate (hchildren hplain)
    | paragraph cs => exact reads_join (hchildren hplain)
    | heading depth cs =>
      exact Reads.tagged (isName_headingTag depth) (reads_join (hchildren hplain))
    | text value => exact Reads.plain (hplain value (List.mem_singleton_self _))
    | list ordered start cs =>
      exact Reads.tagged (isName_listTag ordered) (reads_join (hchildren hplain))
    | listItem checked cs =>
      rw [rendering, String.toList_append]
      exact Reads.mark.append (reads_join (hchildren hplain))
    | link url cs =>
      have hurl : Bracketless url := hplain url (List.mem_cons_self ..)
      have hinside := reads_join (hchildren fun s hs => hplain s (List.mem_cons_of_mem _ hs))
      exact Reads.pair (isLabel_link hurl) (tagName_link url) (by decide) hinside
    | image url alt =>
      exact Reads.tagged (by decide) (Reads.plain (hplain url (List.mem_singleton_self _)))
    | strong cs => exact Reads.tagged (by decide) (reads_join (hchildren hplain))
    | emphasis cs => exact Reads.tagged (by decide) (reads_join (hchildren hplain))
    | blockquote cs =>
      have hinside := reads_join (hchildren hplain)
      rw [outline, text_nodes, String.empty_append]
      exact Reads.quoted hinside
    | delete cs => exact Reads.tagged (by decide) (reads_join (hchildren hplain))
    | inlineCode value =>
      exact Reads.tagged (by decide) (Reads.plain (hplain value (List.mem_singleton_self _)))
    | code value lang =>
      exact Reads.tagged (by decide) (Reads.plain (hplain value (List.mem_singleton_self _)))
    | other kind value cs =>
      cases value with
      | some value => exact Reads.plain (hplain value (List.mem_singleton_self _))
      | none =>
        cases cs with
        | some cs => exact reads_join (hchildren hplain)
        | none => exact Reads.nil

/-- **Rendered markup is well nested and mirrors the tree.** If no string that is written holds a
bracket, then the tags in the rendering match, and the forest of pairs and marks they make is that
of the nodes which are written with tags, in the order and the nesting of the tree. -/
theorem forest_render (node : Node) (h : ∀ s ∈ writtenStrings node, Bracketless s) :
    forest? (render node).toList = some (outline node) := by
  have hread := reads_rendering node h [] []
  rw [render_eq, forest?, hread]
  show some ((outline node).reverse ++ []).reverse = _
  rw [List.append_nil, List.reverse_reverse]

/-- A spoiler, a link whose address has an equals sign in it, and a list in a list. -/
theorem forest_render_nested :
    forest? (render (.root
      [.heading 1 [.text "Patch"],
        .blockquote [.paragraph [.text "! it was ", .strong [.text "he"]]],
        .list false none
          [.listItem none
            [.paragraph [.link "http://a.b/?c=d" [.text "there"]],
              .list true (some 1) [.listItem (some true) [.inlineCode "x"]]]]])).toList
      = some
        [.pair "h1" [],
          .pair "spoiler" [.pair "b" []],
          .pair "list"
            [.mark, .pair "url=http://a.b/?c=d" [], .pair "olist" [.mark, .pair "b" []]]] :=
  forest_render _ (by decide)

end Bracketdown.Markup
