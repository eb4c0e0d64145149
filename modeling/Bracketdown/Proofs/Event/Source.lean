import Bracketdown.Markdown.Document
import Bracketdown.Proofs.Event.Nesting
import Bracketdown.Proofs.Node.LeafText

/-!
# What becomes of the text of a document

Events deliver text in order: texts, code, HTML, formulas, and a line end for each soft break.
`sourceText` reads it off the events alone, one after the other; all it knows of tags is that a
block which is kept as it was written, of code, HTML or front matter, ends without its final line
end. `leafText_treeOf` says that the leaves of the tree hold this text: none is lost, doubled or
moved on the way through the slices of the reader, the runs of items and the linking of addresses.

Some tags keep only a part of what they hold. A block of HTML takes the values in it and nothing
else, code and front matter take texts, and an image is described by texts and code. The statement
is about lists in which these tags hold what they keep (`admitted`), as they do in any document.
-/

namespace Bracketdown

/-- Whether a tag keeps its content as it was written, without the line end behind it. -/
def Tag.isVerbatim : Tag → Bool
  | .codeBlock _ => true
  | .htmlBlock => true
  | .metadata _ => true
  | _ => false

/-- Whether a tag sets off the text in it and holds no other. -/
def TagKind.isStyle : TagKind → Bool
  | .emphasis => true
  | .strong => true
  | .strikethrough => true
  | .link => true
  | _ => false

namespace Event

def isText : Event → Bool
  | .text _ => true
  | _ => false

def isHtml : Event → Bool
  | .html _ => true
  | .inlineHtml _ => true
  | _ => false

/-- Whether an event may be part of the description of an image. -/
def describes : Event → Bool
  | .text _ => true
  | .code _ => true
  | .softBreak => true
  | .hardBreak => true
  | .start tag => tag.kind.isStyle
  | .stop kind => kind.isStyle
  | _ => false

end Event

/-- Whether a tag keeps the text of an event inside it. -/
def Tag.admits (tag : Tag) (event : Event) : Bool :=
  match tag with
  | .htmlBlock => event.isHtml
  | .codeBlock _ => event.isText
  | .metadata _ => event.isText
  | .image _ => event.describes
  | _ => true

namespace Event

/-- The text that an event delivers. -/
def source : Event → String
  | .text value => value
  | .code value => value
  | .html value => value
  | .inlineHtml value => value
  | .inlineMath value => value
  | .displayMath value => value
  | .softBreak => "\n"
  | _ => ""

/-- A text less the line end at its end, if it ends with one. -/
def lessFinalNewline (s : String) : String :=
  if s.toList.getLast? = some '\n' then String.ofList s.toList.dropLast else s

/-- The text that events deliver, in order, where each verbatim block loses the line end at its end.
In such a block, `block` is what has been delivered since its start. -/
def sourceText : Option String → List Event → String
  | none, [] => ""
  | none, .start tag :: events => sourceText (if tag.isVerbatim then some "" else none) events
  | none, event :: events => event.source ++ sourceText none events
  | some block, [] => block
  | some block, .stop _ :: events => lessFinalNewline block ++ sourceText none events
  | some block, event :: events => sourceText (some (block ++ event.source)) events

/-- Whether every event is admitted by all tags that are open around it. The tags in `opened`,
innermost first, are open in front of the events. -/
def admitted (opened : List Tag) : List Event → Bool
  | [] => true
  | .start tag :: events =>
    opened.all (·.admits (.start tag)) && admitted (tag :: opened) events
  | .stop kind :: events =>
    opened.tail.all (·.admits (.stop kind)) && admitted opened.tail events
  | event :: events => opened.all (·.admits event) && admitted opened events

/-! ## What is admitted -/

theorem admitted_plain {event : Event} (h : event.isPlain) (opened : List Tag)
    (events : List Event) :
    admitted opened (event :: events)
      = (opened.all (·.admits event) && admitted opened events) := by
  cases event with
  | start => cases h
  | stop => cases h
  | _ => rfl

/-- Behind well nested events the same tags are open as in front of them. -/
theorem admitted_append {inside : List Event} (h : Nested inside) (opened : List Tag)
    (behind : List Event) :
    admitted opened (inside ++ behind) = (admitted opened inside && admitted opened behind) := by
  induction h generalizing opened behind with
  | nil => rfl
  | plain hplain _ ih =>
    rw [List.cons_append, admitted_plain hplain, admitted_plain hplain, ih, Bool.and_assoc]
  | @pair within rest tag _ _ ihwithin ihrest =>
    rw [List.cons_append, List.append_assoc, List.cons_append, admitted, admitted, ihwithin,
      ihwithin, admitted, admitted, List.tail_cons, ihrest]
    simp only [Bool.and_assoc]

/-- What it takes for a pair to be admitted. -/
theorem admitted_pair {inside behind : List Event} {tag : Tag} {opened : List Tag}
    (h : Nested inside)
    (hadmitted : admitted opened (.start tag :: (inside ++ .stop tag.kind :: behind)) = true) :
    opened.all (·.admits (.start tag)) = true ∧ admitted (tag :: opened) inside = true
      ∧ opened.all (·.admits (.stop tag.kind)) = true ∧ admitted opened behind = true := by
  rw [admitted, admitted_append h, admitted, List.tail_cons, Bool.and_eq_true, Bool.and_eq_true,
    Bool.and_eq_true] at hadmitted
  exact hadmitted

/-- A tag admits everything inside it, at any depth. -/
theorem admits_of_admitted {inside : List Event} (h : Nested inside) {opened : List Tag}
    (hadmitted : admitted opened inside = true) {tag : Tag} (htag : tag ∈ opened) :
    ∀ event ∈ inside, tag.admits event = true := by
  induction h generalizing opened with
  | nil => exact fun _ hevent => absurd hevent List.not_mem_nil
  | plain hplain _ ih =>
    rw [admitted_plain hplain, Bool.and_eq_true] at hadmitted
    intro event hevent
    rcases List.mem_cons.mp hevent with rfl | hevent
    · exact List.all_eq_true.mp hadmitted.1 tag htag
    · exact ih hadmitted.2 htag event hevent
  | @pair within rest tag' hwithin _ ihwithin ihrest =>
    obtain ⟨hstart, hinside, hstop, hbehind⟩ := admitted_pair hwithin hadmitted
    intro event hevent
    rcases List.mem_cons.mp hevent with rfl | hevent
    · exact List.all_eq_true.mp hstart tag htag
    · rcases List.mem_append.mp hevent with hevent | hevent
      · exact ihwithin hinside (List.mem_cons_of_mem _ htag) event hevent
      · rcases List.mem_cons.mp hevent with rfl | hevent
        · exact List.all_eq_true.mp hstop tag htag
        · exact ihrest hbehind htag event hevent

theorem isPlain_of_admits {tag : Tag} {event : Event} (hverbatim : tag.isVerbatim)
    (h : tag.admits event) : event.isPlain = true := by
  cases event with
  | start | stop =>
    cases tag with
    | codeBlock | htmlBlock | metadata => cases h
    | _ => cases hverbatim
  | _ => rfl

/-! ## Events and verbatim blocks -/

/-- The node of an event holds what the event delivers. -/
theorem leafTexts_leaf? {event : Event} (h : event.isPlain) :
    Node.leafTexts event.leaf?.toList = event.source := by
  cases event with
  | start | stop => cases h
  | taskMarker => rfl
  | _ => exact (Node.leafTexts_singleton _).trans (Node.leafText_of_leaf rfl)

theorem sourceText_plain {event : Event} (h : event.isPlain) (events : List Event) :
    sourceText none (event :: events) = event.source ++ sourceText none events := by
  cases event with
  | start => cases h
  | _ => rfl

/-- What the reader takes off the end of a block is a line end, and no more than one. -/
theorem dropFinalNewline_eq (s : String) : dropFinalNewline s = lessFinalNewline s := by
  have hlast : s.toList.getLast? = s.toList.reverse.head? := List.getLast?_eq_head?_reverse
  have hinit : s.toList.dropLast = s.toList.reverse.tail.reverse := by
    rw [List.tail_reverse, List.reverse_reverse]
  unfold dropFinalNewline lessFinalNewline
  rw [hlast, hinit]
  split
  next rest hreverse => rw [hreverse, List.head?_cons, if_pos rfl, List.tail_cons]
  next hreverse =>
    rw [if_neg]
    intro hhead
    obtain ⟨rest, hrest⟩ := List.head?_eq_some_iff.mp hhead
    exact hreverse rest hrest

/-- A verbatim block delivers what is in it, less the line end at its end. -/
theorem sourceText_block {inside : List Event} (h : ∀ event ∈ inside, event.isPlain) (block : String)
    (kind : TagKind) (behind : List Event) :
    sourceText (some block) (inside ++ .stop kind :: behind)
      = lessFinalNewline (block ++ String.join (inside.map source)) ++ sourceText none behind := by
  induction inside generalizing block with
  | nil =>
    show lessFinalNewline block ++ _ = lessFinalNewline (block ++ "") ++ _
    rw [String.append_empty]
  | cons event inside ih =>
    have hplain := h event (List.mem_cons_self ..)
    have hstep : sourceText (some block) (event :: (inside ++ .stop kind :: behind))
        = sourceText (some (block ++ event.source)) (inside ++ .stop kind :: behind) := by
      cases event with
      | stop => cases hplain
      | _ => rfl
    rw [List.cons_append, hstep, ih (fun e he => h e (List.mem_cons_of_mem _ he)), List.map_cons,
      String.join_cons, String.append_assoc]

end Event

namespace Node

theorem plainTexts_eq (nodes : List Node) :
    plainTexts nodes = String.join (nodes.map plainText) := by
  induction nodes with
  | nil => rfl
  | cons node nodes ih => rw [plainTexts, ih, List.map_cons, String.join_cons]

theorem plainTexts_append (nodes nodes' : List Node) :
    plainTexts (nodes ++ nodes') = plainTexts nodes ++ plainTexts nodes' := by
  rw [plainTexts_eq, plainTexts_eq, plainTexts_eq, List.map_append, String.join_append]

theorem plainTexts_joinTexts (nodes : List Node) :
    plainTexts (joinTexts nodes) = plainTexts nodes := by
  rw [plainTexts_eq, plainTexts_eq]
  exact join_map_joinTexts (fun _ _ => rfl) nodes

theorem values_eq (nodes : List Node) :
    values nodes = String.join (nodes.map fun node => node.value?.getD "") := by
  unfold values
  induction nodes with
  | nil => rfl
  | cons node nodes ih =>
    rw [List.map_cons, String.join_cons, ← ih, List.filterMap_cons]
    cases node.value? with
    | none => exact String.empty_append.symm
    | some value => exact String.join_cons

theorem values_joinTexts (nodes : List Node) : values (joinTexts nodes) = values nodes := by
  rw [values_eq, values_eq]
  exact join_map_joinTexts (fun _ _ => rfl) nodes

end Node

namespace Piece

open Event (Nested source)

theorem map_node_piece? (event : Event) : event.piece?.toList.map node = event.leaf?.toList := by
  unfold Event.piece?
  cases event.leaf? <;> rfl

theorem map_node_ofEvents_cons {event : Event} (h : event.isPlain) (events : List Event) :
    (ofEvents (event :: events)).map node
      = event.leaf?.toList ++ (ofEvents events).map node := by
  rw [ofEvents_plain h, List.map_append, map_node_piece?]

/-- What is read off the nodes of events that each deliver what is read off their node. -/
theorem join_map_ofEvents {f : Node → String} {inside : List Event}
    (h : ∀ event ∈ inside, event.isPlain ∧ ∃ node, event.leaf? = some node ∧ f node = event.source) :
    String.join (((ofEvents inside).map node).map f) = String.join (inside.map source) := by
  induction inside with
  | nil =>
    rw [ofEvents]
    rfl
  | cons event inside ih =>
    obtain ⟨hplain, node, hleaf, hnode⟩ := h event (List.mem_cons_self ..)
    rw [map_node_ofEvents_cons hplain, hleaf, List.map_append, String.join_append,
      ih fun e he => h e (List.mem_cons_of_mem _ he), List.map_cons, String.join_cons, ← hnode]
    congr 1

end Piece

namespace Tag

theorem plainTexts_of_texts {inside : List Event} (h : ∀ event ∈ inside, ∃ s, event = .text s) :
    Node.plainTexts (Node.joinTexts ((Piece.ofEvents inside).map Piece.node))
      = String.join (inside.map Event.source) := by
  rw [Node.plainTexts_joinTexts, Node.plainTexts_eq]
  refine Piece.join_map_ofEvents fun event hevent => ?_
  obtain ⟨s, rfl⟩ := h event hevent
  exact ⟨rfl, .text s, rfl, rfl⟩

theorem values_of_html {inside : List Event}
    (h : ∀ event ∈ inside, ∃ s, event = .html s ∨ event = .inlineHtml s) :
    Node.values (Node.joinTexts ((Piece.ofEvents inside).map Piece.node))
      = String.join (inside.map Event.source) := by
  rw [Node.values_joinTexts, Node.values_eq]
  refine Piece.join_map_ofEvents fun event hevent => ?_
  obtain ⟨s, rfl | rfl⟩ := h event hevent
  · exact ⟨rfl, .valued Kind.html s, rfl, rfl⟩
  · exact ⟨rfl, .valued Kind.html s, rfl, rfl⟩

/-- A verbatim block holds what it was given, less the line end at its end. -/
theorem leafText_node_verbatim {tag : Tag} (hverbatim : tag.isVerbatim) {inside : List Event}
    (h : ∀ event ∈ inside, tag.admits event) :
    (tag.node inside (tag.content (Piece.ofEvents inside))).leafText
      = Event.lessFinalNewline (String.join (inside.map Event.source)) := by
  rw [← Event.dropFinalNewline_eq]
  cases tag with
  | codeBlock | metadata =>
    have htexts : ∀ event ∈ inside, ∃ s, event = .text s := by
      intro event hevent
      have hadmits := h event hevent
      cases event with
      | text s => exact ⟨s, rfl⟩
      | _ => cases hadmits
    rw [← plainTexts_of_texts htexts]
    exact Node.leafText_of_leaf rfl
  | htmlBlock =>
    have hhtml : ∀ event ∈ inside, ∃ s, event = .html s ∨ event = .inlineHtml s := by
      intro event hevent
      have hadmits := h event hevent
      cases event with
      | html s => exact ⟨s, .inl rfl⟩
      | inlineHtml s => exact ⟨s, .inr rfl⟩
      | _ => cases hadmits
    rw [← values_of_html hhtml]
    exact Node.leafText_of_leaf rfl
  | _ => cases hverbatim

theorem leafTexts_content (tag : Tag) (pieces : List Piece) :
    Node.leafTexts (tag.content pieces) = Node.leafTexts (pieces.map Piece.node) := by
  cases tag with
  | item => exact (Node.leafTexts_wrapRuns [] pieces).trans String.empty_append
  | _ => exact Node.leafTexts_joinTexts _

/-- An image is described by the text in it. -/
theorem plainTexts_of_image {inside : List Event} (h : Event.Nested inside) {url : String}
    (hadmits : ∀ event ∈ inside, (Tag.image url).admits event) :
    Node.plainTexts ((Piece.ofEvents inside).map Piece.node)
      = Node.leafTexts ((Piece.ofEvents inside).map Piece.node) := by
  induction h with
  | nil =>
    rw [Piece.ofEvents]
    rfl
  | @plain event events hplain _ ih =>
    have hrest := ih fun e he => hadmits e (List.mem_cons_of_mem _ he)
    have hevent := hadmits event (List.mem_cons_self ..)
    have hleaf : Node.plainTexts event.leaf?.toList = event.source := by
      cases event with
      | start | stop => cases hplain
      | text | code | softBreak | hardBreak => exact String.append_empty
      | _ => cases hevent
    rw [Piece.map_node_ofEvents_cons hplain, Node.plainTexts_append, hleaf, hrest,
      Node.leafTexts_append, Event.leafTexts_leaf? hplain]
  | @pair within rest tag hwithin _ ihwithin ihrest =>
    have hstart := hadmits (.start tag) (List.mem_cons_self ..)
    have hinside := ihwithin fun e he =>
      hadmits e (List.mem_cons_of_mem _ (List.mem_append_left _ he))
    have hbehind := ihrest fun e he =>
      hadmits e (List.mem_cons_of_mem _ (List.mem_append_right _ (List.mem_cons_of_mem _ he)))
    have hnode : (tag.node within (tag.content (Piece.ofEvents within))).plainText
        = (tag.node within (tag.content (Piece.ofEvents within))).leafText := by
      cases tag with
      | emphasis | strong | strikethrough | link =>
        refine Eq.trans ?_ (Node.leafText_of_ownText rfl).symm
        refine (Node.plainTexts_joinTexts _).trans ?_
        rw [hinside]
        exact (Node.leafTexts_joinTexts _).symm
      | _ => cases hstart
    rw [Piece.ofEvents_pair hwithin, List.map_cons, Node.plainTexts, hnode, hbehind,
      Node.leafTexts_cons]

/-- A tag that is not kept verbatim holds the text of what is in it. -/
theorem leafText_node {tag : Tag} (hverbatim : tag.isVerbatim = false) {inside : List Event}
    (hinside : Event.Nested inside) (h : ∀ event ∈ inside, tag.admits event) :
    (tag.node inside (tag.content (Piece.ofEvents inside))).leafText
      = Node.leafTexts ((Piece.ofEvents inside).map Piece.node) := by
  rw [← tag.leafTexts_content]
  cases tag with
  | codeBlock | htmlBlock | metadata => cases hverbatim
  | image url =>
    refine (Node.leafText_of_leaf rfl).trans ?_
    refine (Node.plainTexts_joinTexts _).trans ?_
    rw [plainTexts_of_image hinside h]
    exact (Node.leafTexts_joinTexts _).symm
  | _ => exact Node.leafText_of_ownText rfl

end Tag

namespace Event

/-- **The leaves of what is read hold what the events deliver**, and what follows is read apart. -/
theorem sourceText_append {inside : List Event} (h : Nested inside) {opened : List Tag}
    (hadmitted : admitted opened inside = true) (behind : List Event) :
    sourceText none (inside ++ behind)
      = Node.leafTexts ((Piece.ofEvents inside).map Piece.node) ++ sourceText none behind := by
  induction h generalizing opened behind with
  | nil =>
    rw [Piece.ofEvents]
    exact String.empty_append.symm
  | @plain event events hplain _ ih =>
    rw [admitted_plain hplain, Bool.and_eq_true] at hadmitted
    rw [List.cons_append, sourceText_plain hplain, ih hadmitted.2,
      Piece.map_node_ofEvents_cons hplain, Node.leafTexts_append, leafTexts_leaf? hplain,
      String.append_assoc]
  | @pair within rest tag hwithin _ ihwithin ihrest =>
    obtain ⟨-, hinside, -, hrest⟩ := admitted_pair hwithin hadmitted
    have hadmits := admits_of_admitted hwithin hinside (List.mem_cons_self ..)
    rw [List.cons_append, List.append_assoc, List.cons_append, sourceText,
      Piece.ofEvents_pair hwithin, List.map_cons, Node.leafTexts_cons, String.append_assoc,
      ← ihrest hrest]
    cases hverbatim : tag.isVerbatim with
    | true =>
      have hplain : ∀ event ∈ within, event.isPlain := fun event hevent =>
        isPlain_of_admits hverbatim (hadmits event hevent)
      rw [if_pos rfl, sourceText_block hplain, String.empty_append,
        Tag.leafText_node_verbatim hverbatim hadmits]
    | false =>
      rw [if_neg Bool.false_ne_true, ihwithin hinside, Tag.leafText_node hverbatim hwithin hadmits]
      -- The end of the tag delivers nothing.
      exact congrArg _ String.empty_append

end Event

namespace Markdown

/-- **No text of a document is lost, doubled or moved.** For a well nested list in which blocks of
code, HTML and front matter and images hold what they keep, the leaves of the tree, read in order,
hold the text that the events deliver, whether addresses are linked or not. -/
theorem leafText_treeOf (options : Options) {events : List Event}
    (hnested : Event.wellNested events = true) (hadmitted : Event.admitted [] events = true) :
    (treeOf options events).leafText = Event.sourceText none events := by
  have hroot : (Node.root (Node.ofEvents events)).leafText = Event.sourceText none events := by
    have hsource := Event.sourceText_append (Event.wellNested_iff.mp hnested) hadmitted []
    rw [List.append_nil] at hsource
    have hleaves : (Node.root (Node.ofEvents events)).leafText
        = Node.leafTexts ((Piece.ofEvents events).map Piece.node) :=
      (Node.leafText_of_ownText rfl).trans (Node.leafTexts_joinTexts _)
    rw [hleaves, hsource]
    exact String.append_empty.symm
  unfold treeOf
  dsimp only
  split
  · rw [Node.leafText_linkLiterals, hroot]
  · exact hroot

/-- Text over a soft break with an address in it, an image, and a block of code. -/
theorem leafText_treeOf_item :
    (treeOf {}
      [.start (.list (some 1)), .start .item, .taskMarker true, .text "at", .softBreak,
        .text "www.a.b ", .start (.image "u"), .start .emphasis, .text "c", .stop .emphasis,
        .code "d", .stop .image, .start (.codeBlock none), .text "e\n", .text "f\n",
        .stop .codeBlock, .stop .item, .stop .list]).leafText = "at\nwww.a.b cde\nf" :=
  (leafText_treeOf {} (by decide) (by decide)).trans (by decide)

end Markdown

end Bracketdown
