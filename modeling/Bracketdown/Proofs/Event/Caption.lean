import Bracketdown.Proofs.Event.Gathered

/-!
# How images are described

The events between the start and the end of an image become nodes first, and the text of these nodes
is the description of the image. So a text keeps its place in the description only if the node that
it becomes still has it as text. In emphasis, in a link, in whatever else has children it does. In
an image it does not: the inner image keeps its text as a description of its own, and the text of a
node does not read descriptions. Nor does it read blocks of code, HTML and front matter.

`images_treeOf` says which images a document has, and that each is described by the words inside it
that are in no further tag of these sorts (`caption`). Where an image holds inline content alone,
that is all the words in it if and only if there are none in the images inside it, and
`images_image_in_image` is an image for which it is not.
-/

namespace Bracketdown

/-- The address and the description of an image. -/
def Node.image? : Node → Option (String × String)
  | .image url alt => some (url, alt)
  | _ => none

/-- The images of a tree, in order. -/
def Node.images (tree : Node) : List (String × String) := tree.preorder.filterMap Node.image?

namespace Event

/-- The words of an event. -/
def words : Event → String
  | .text value => value
  | .code value => value
  | .softBreak => "\n"
  | _ => ""

/-- All words of events, in order. -/
def allWords (events : List Event) : String := String.join (events.map words)

/-- The words of the events that stand where a test holds of the tags open around them. The tags in
`opened`, innermost first, are open in front of the events. -/
def wordsWhere (test : List Tag → Bool) (opened : List Tag) : List Event → String
  | [] => ""
  | .start tag :: events => wordsWhere test (tag :: opened) events
  | .stop _ :: events => wordsWhere test opened.tail events
  | event :: events =>
    (if test opened then event.words else "") ++ wordsWhere test opened events

/-- The words of events that no tag among them turns into a string of its own. -/
def caption (events : List Event) : String :=
  wordsWhere (fun opened => !opened.any Tag.isFlat) [] events

/-- The words of events inside the images among them. -/
def imageWords (events : List Event) : String :=
  wordsWhere (fun opened => opened.any Tag.isImage) [] events

/-- Whether an event opens nothing but what may stand in a line of text. -/
def isInline : Event → Bool
  | .start tag => tag.kind.isStyle || tag.isImage
  | _ => true

/-- The images that events open, but not inside a tag whose content becomes a string: their
addresses and the events inside them. The tags in `opened` are open in front of the events. -/
def imageTags (opened : List Tag) : List Event → List (String × List Event)
  | [] => []
  | .start tag :: events =>
    (if opened.any Tag.isFlat then [] else tag.image?.toList.map fun url => (url, upToEnd 0 events))
      ++ imageTags (tag :: opened) events
  | .stop _ :: events => imageTags opened.tail events
  | _ :: events => imageTags opened events

/-! ## Words and the tags around them -/

section Words

variable {test test' : List Tag → Bool} {opened : List Tag} {event : Event} {events : List Event}

theorem wordsWhere_plain (h : event.isPlain) :
    wordsWhere test opened (event :: events)
      = (if test opened then event.words else "") ++ wordsWhere test opened events := by
  cases event with
  | start => cases h
  | stop => cases h
  | _ => rfl

theorem wordsWhere_append {inside : List Event} (h : Nested inside) (opened : List Tag)
    (behind : List Event) :
    wordsWhere test opened (inside ++ behind)
      = wordsWhere test opened inside ++ wordsWhere test opened behind := by
  induction h generalizing opened behind with
  | nil => exact String.empty_append.symm
  | plain hplain _ ih =>
    rw [List.cons_append, wordsWhere_plain hplain, ih, wordsWhere_plain hplain, String.append_assoc]
  | pair tag _ _ ihinside ihbehind =>
    rw [List.cons_append, List.append_assoc, List.cons_append]
    simp only [wordsWhere, ihinside, ihbehind, List.tail_cons, String.append_assoc]

theorem wordsWhere_pair {inside behind : List Event} (h : Nested inside) (tag : Tag)
    (opened : List Tag) :
    wordsWhere test opened (.start tag :: (inside ++ .stop tag.kind :: behind))
      = wordsWhere test (tag :: opened) inside ++ wordsWhere test opened behind := by
  rw [wordsWhere, wordsWhere_append h, wordsWhere, List.tail_cons]

/-- Where the test fails whatever is opened further, there are no words. -/
theorem wordsWhere_of_false {inside : List Event} (h : Nested inside) {opened : List Tag}
    (htest : ∀ more, test (more ++ opened) = false) : wordsWhere test opened inside = "" := by
  induction h generalizing opened with
  | nil => rfl
  | plain hplain _ ih =>
    have hhere := htest []
    rw [List.nil_append] at hhere
    rw [wordsWhere_plain hplain, hhere, ih htest]
    rfl
  | pair tag hinside _ ihinside ihbehind =>
    have hwithin : ∀ more, test (more ++ tag :: opened) = false := by
      intro more
      have hmore := htest (more ++ [tag])
      rwa [List.append_assoc, List.singleton_append] at hmore
    rw [wordsWhere_pair hinside, ihinside hwithin, ihbehind htest]
    rfl

/-- Two tests that agree on the tags that may be open find the same words. -/
theorem wordsWhere_congr {P : Tag → Prop}
    (htest : ∀ opened : List Tag, (∀ tag ∈ opened, P tag) → test opened = test' opened)
    (hevents : ∀ tag, .start tag ∈ events → P tag) {opened : List Tag}
    (hopened : ∀ tag ∈ opened, P tag) :
    wordsWhere test opened events = wordsWhere test' opened events := by
  induction events generalizing opened with
  | nil => rfl
  | cons event events ih =>
    have hrest : ∀ tag, .start tag ∈ events → P tag := by
      intro tag htag
      exact hevents tag (List.mem_cons_of_mem _ htag)
    rcases event.start_or_stop_or_plain with ⟨tag, rfl⟩ | ⟨kind, rfl⟩ | hplain
    · rw [wordsWhere, wordsWhere]
      apply ih hrest
      intro t ht
      rcases List.mem_cons.mp ht with rfl | ht
      · exact hevents t (List.mem_cons_self ..)
      · exact hopened t ht
    · rw [wordsWhere, wordsWhere]
      apply ih hrest
      intro t ht
      exact hopened t (List.mem_of_mem_tail ht)
    · rw [wordsWhere_plain hplain, wordsWhere_plain hplain, htest opened hopened, ih hrest hopened]

/-- Every word is where the test holds or where it fails. -/
theorem length_allWords (test : List Tag → Bool) (opened : List Tag) (events : List Event) :
    (allWords events).length = (wordsWhere test opened events).length
      + (wordsWhere (fun opened => !test opened) opened events).length := by
  unfold allWords
  induction events generalizing opened with
  | nil => rfl
  | cons event events ih =>
    rw [List.map_cons, String.join_cons, String.length_append]
    rcases event.start_or_stop_or_plain with ⟨tag, rfl⟩ | ⟨kind, rfl⟩ | hplain
    · rw [wordsWhere, wordsWhere, ← ih (tag :: opened)]
      simp [words]
    · rw [wordsWhere, wordsWhere, ← ih opened.tail]
      simp [words]
    · rw [wordsWhere_plain hplain, wordsWhere_plain hplain, ih opened]
      by_cases htest : test opened = true
      · simp [htest]
        omega
      · simp [htest]
        omega

/-- The words where a test holds are all words when there are none where it fails. -/
theorem wordsWhere_eq_allWords_iff {test : List Tag → Bool} {opened : List Tag} :
    wordsWhere test opened events = allWords events
      ↔ wordsWhere (fun opened => !test opened) opened events = "" := by
  constructor
  · intro h
    have hlength := length_allWords test opened events
    rw [h] at hlength
    exact String.length_eq_zero_iff.mp (by omega)
  · intro h
    unfold allWords
    induction events generalizing opened with
    | nil => rfl
    | cons event events ih =>
      rw [List.map_cons, String.join_cons]
      rcases event.start_or_stop_or_plain with ⟨tag, rfl⟩ | ⟨kind, rfl⟩ | hplain
      · rw [wordsWhere] at h ⊢
        rw [ih h]
        exact String.empty_append.symm
      · rw [wordsWhere] at h ⊢
        rw [ih h]
        exact String.empty_append.symm
      · rw [wordsWhere_plain hplain, String.append_eq_empty_iff] at h
        rw [wordsWhere_plain hplain, ih h.2]
        by_cases htest : test opened = true
        · rw [if_pos htest]
        · have hnone : event.words = "" := by simpa [htest] using h.1
          rw [if_neg htest, hnone]

end Words

theorem imageTags_plain {event : Event} (h : event.isPlain) (opened : List Tag)
    (events : List Event) : imageTags opened (event :: events) = imageTags opened events := by
  cases event with
  | start => cases h
  | stop => cases h
  | _ => rfl

end Event

/-! ## Descriptions -/

namespace Tag

open Node (plainTexts plainText joinTexts wrapRuns)

theorem plainTexts_content (tag : Tag) (pieces : List Piece) :
    plainTexts (tag.content pieces) = plainTexts (pieces.map Piece.node) := by
  cases tag with
  | item =>
    have hruns := Node.join_map_wrapRuns (f := plainText) (fun _ _ => rfl) Node.plainTexts_eq []
      pieces
    show plainTexts (wrapRuns [] pieces) = _
    rw [Node.plainTexts_eq, Node.plainTexts_eq, hruns]
    exact String.empty_append
  | _ => exact Node.plainTexts_joinTexts _

/-- The text of a tag is that of its content, unless the content has become a string. -/
theorem plainText_node (tag : Tag) (inside : List Event) (nodes : List Node) :
    (tag.node inside nodes).plainText = if tag.isFlat then "" else plainTexts nodes := by
  cases tag <;> rfl

end Tag

namespace Event

theorem plainTexts_leaf? {event : Event} (h : event.isPlain) :
    Node.plainTexts event.leaf?.toList = event.words := by
  cases event with
  | start => cases h
  | stop => cases h
  | taskMarker => rfl
  | _ => exact String.append_empty

/-- **The text of the nodes that events become is the words that no tag among the events turns into
a string.** -/
theorem plainTexts_ofEvents {inside : List Event} (h : Nested inside) {opened : List Tag}
    (hopened : opened.any Tag.isFlat = false) :
    Node.plainTexts ((Piece.ofEvents inside).map Piece.node)
      = wordsWhere (fun opened => !opened.any Tag.isFlat) opened inside := by
  induction h generalizing opened with
  | nil =>
    rw [Piece.ofEvents]
    rfl
  | plain hplain _ ih =>
    rw [Piece.map_node_ofEvents_cons hplain, Node.plainTexts_append, plainTexts_leaf? hplain,
      ih hopened, wordsWhere_plain hplain, hopened]
    rfl
  | @pair within rest tag hwithin _ ihwithin ihrest =>
    rw [Piece.ofEvents_pair hwithin, List.map_cons, Node.plainTexts, Tag.plainText_node,
      Tag.plainTexts_content, ihrest hopened, wordsWhere_pair hwithin]
    by_cases hflat : tag.isFlat = true
    · have hnone :
          wordsWhere (fun opened => !opened.any Tag.isFlat) (tag :: opened) within = "" := by
        apply wordsWhere_of_false hwithin
        intro more
        simp [hflat]
      rw [if_pos hflat, hnone]
    · have hthrough : (tag :: opened).any Tag.isFlat = false := by simp [hflat, hopened]
      rw [if_neg hflat, ihwithin hthrough]

/-- The description of an image is the caption of the events inside it. -/
theorem node_image {inside : List Event} (h : Nested inside) (url : String) :
    (Tag.image url).node inside ((Tag.image url).content (Piece.ofEvents inside))
      = .image url (caption inside) := by
  have hnone : ([] : List Tag).any Tag.isFlat = false := rfl
  show Node.image url (Node.plainTexts ((Tag.image url).content (Piece.ofEvents inside))) = _
  rw [Tag.plainTexts_content, plainTexts_ofEvents h hnone]
  rfl

end Event

/-! ## Images -/

namespace Node

theorem images_eq (node : Node) :
    node.images = node.image?.toList ++ node.children.flatMap images :=
  filterMap_preorder image? node

theorem images_text (value : String) : (Node.text value).images = [] := by
  rw [images_eq]
  rfl

theorem images_eq_flatMap (tree : Node) :
    tree.images = tree.preorder.flatMap fun node => node.image?.toList := by
  rw [images, List.filterMap_eq_flatMap_toList]

end Node

namespace Event

/-- The images that events open, each with the words that describe it. -/
def captions (opened : List Tag) (events : List Event) : List (String × String) :=
  (imageTags opened events).map fun tag => (tag.1, caption tag.2)

/-- An image is read off the events inside its tag, and off nothing else. -/
theorem gathers_images :
    Gathers (fun node => node.image?.toList)
      (fun tag inside => tag.image?.toList.map fun url => (url, caption inside)) fun _ => [] where
  text _ := rfl
  paragraph _ := rfl
  root _ := rfl
  literal _ _ := rfl
  around shell _ _ _ := by cases shell <;> rfl
  tag tag inside h := by
    cases tag with
    | image url =>
      rw [node_image h]
      rfl
    | _ => rfl
  leaf event h := by
    cases event with
    | start => cases h
    | stop => cases h
    | _ => rfl

theorem captions_eq_gathered (opened : List Tag) (events : List Event) :
    captions opened events
      = gathered (fun tag inside => tag.image?.toList.map fun url => (url, caption inside))
          (fun _ => []) opened events := by
  unfold captions
  induction events generalizing opened with
  | nil => rfl
  | cons event events ih =>
    rcases event.start_or_stop_or_plain with ⟨tag, rfl⟩ | ⟨kind, rfl⟩ | hplain
    · rw [imageTags, gathered, List.map_append, ih]
      by_cases hopened : opened.any Tag.isFlat = true
      · rw [if_pos hopened, if_pos hopened]
        rfl
      · rw [if_neg hopened, if_neg hopened, List.map_map]
        rfl
    · rw [imageTags, gathered, ih]
    · rw [imageTags_plain hplain, gathered_plain hplain, ih, ite_self, List.nil_append]

/-- **The images of the nodes that events become are those that the events open**, and what follows
opens its own. -/
theorem captions_append {inside : List Event} (h : Nested inside) {opened : List Tag}
    (hopened : opened.any Tag.isFlat = false) (behind : List Event) :
    captions opened (inside ++ behind)
      = ((Piece.ofEvents inside).map Piece.node).flatMap Node.images ++ captions opened behind := by
  rw [captions_eq_gathered, captions_eq_gathered, gathers_images.gathered_append h hopened,
    funext Node.images_eq_flatMap]

end Event

theorem Node.images_linkLiterals (tree : Node) : tree.linkLiterals.images = tree.images := by
  rw [images_eq_flatMap, images_eq_flatMap, Event.gathers_images.flatMap_linkLiterals]

namespace Event

/-- In inline content it is the images alone that keep words from a caption. -/
theorem caption_eq_allWords_iff {inside : List Event}
    (h : ∀ event ∈ inside, event.isInline = true) :
    caption inside = allWords inside ↔ imageWords inside = "" := by
  have hwords :
      wordsWhere (fun opened => !!opened.any Tag.isFlat) [] inside = imageWords inside := by
    apply wordsWhere_congr (P := fun tag => tag.isFlat = tag.isImage)
    · intro opened hopened
      rw [Bool.not_not]
      induction opened with
      | nil => rfl
      | cons tag opened ih =>
        rw [List.any_cons, List.any_cons, hopened tag (List.mem_cons_self ..)]
        rw [ih fun t ht => hopened t (List.mem_cons_of_mem _ ht)]
    · intro tag htag
      have hinline := h _ htag
      cases tag <;> first | rfl | cases hinline
    · intro tag htag
      cases htag
  unfold caption
  rw [wordsWhere_eq_allWords_iff, hwords]

end Event

namespace Markdown

open Event (wellNested imageTags caption allWords imageWords)

/-- **Which images a document has, and how they are described.** The images of the tree are those
that the events open, in order, each described by the words inside it that no further tag turns into
a string. For an image that holds inline content alone these are all the words inside it if and only
if there are none in the images inside it. -/
theorem images_treeOf (options : Options) {events : List Event} (h : wellNested events = true) :
    (treeOf options events).images = (imageTags [] events).map (fun tag => (tag.1, caption tag.2))
      ∧ ∀ url inside, (url, inside) ∈ imageTags [] events →
        (∀ event ∈ inside, event.isInline = true) →
          (caption inside = allWords inside ↔ imageWords inside = "") := by
  constructor
  · have hnone : ([] : List Tag).any Tag.isFlat = false := rfl
    have hcaptions := Event.captions_append (Event.wellNested_iff.mp h) hnone []
    rw [List.append_nil] at hcaptions
    have hroot : (Node.root (Node.ofEvents events)).images = Event.captions [] events := by
      rw [hcaptions, Node.images_eq]
      show [] ++ (Node.ofEvents events).flatMap Node.images = _ ++ []
      rw [List.nil_append, List.append_nil, Node.ofEvents, Node.flatMap_joinTexts Node.images_text]
    unfold treeOf
    dsimp only
    split
    · rw [Node.images_linkLiterals, hroot]
      rfl
    · exact hroot
  · intro url inside _ hinline
    exact Event.caption_eq_allWords_iff hinline

/-- An image in an item, with code, a line end and a link in it, and one in a block of code. -/
theorem images_treeOf_item :
    let inside := [Event.text "a", .softBreak, .start (.link "v"), .code "b", .stop .link]
    let events := [Event.start (.list none), .start .item, .text "see ", .start (.image "u")]
      ++ inside ++ [.stop .image, .stop .item, .stop .list, .start (.codeBlock none), .start (.image "w"),
        .text "c", .stop .image, .stop .codeBlock]
    (treeOf {} events).images = [("u", "a\nb")] ∧ caption inside = allWords inside := by
  intro inside events
  have himages := @images_treeOf {} events (by decide)
  refine ⟨himages.1.trans (by decide), (himages.2 "u" inside ?_ (by decide)).mpr (by decide)⟩
  exact List.mem_cons_self ..

/-- An image inside an image: its words are among those inside the outer image, and not in its
description. -/
theorem images_image_in_image :
    let inside := [Event.text "foo ", .start (.image "/u"), .text "bar", .stop .image]
    let events := Event.start (.image "/v") :: (inside ++ [.stop .image])
    wellNested events = true ∧ imageTags [] events = [("/v", inside)]
      ∧ inside.all Event.isInline = true ∧ allWords inside = "foo bar"
      ∧ (treeOf {} events).images = [("/v", "foo ")] := by
  refine ⟨by decide, by decide, by decide, by decide, ?_⟩
  decide +kernel

end Markdown

end Bracketdown
