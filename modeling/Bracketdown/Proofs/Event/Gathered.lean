import Bracketdown.Proofs.Event.Shape
import Bracketdown.Proofs.Event.Source
import Bracketdown.Proofs.Node.Linked
import Mathlib.Data.List.Basic

/-!
# What is gathered from a tree

Some statements about a document are of one form: they take something from each node of its tree,
the images or the values of HTML, and say where it comes from in the events. Read off the events, it
is what each tag gives for the events inside it, and what each event gives that encloses nothing,
but not inside a tag whose content becomes a string (`gathered`).

That the tree and the events give the same (`gathered_treeOf`) has little to do with what is taken.
It must not be taken from texts, paragraphs and links around addresses, which the reader joins,
wraps and makes as it likes (`Gathers`); and what is taken from a single node must be right.
-/

namespace Bracketdown

/-- The address of an image. -/
def Tag.image? : Tag → Option String
  | .image url => some url
  | _ => none

def Tag.isImage (tag : Tag) : Bool := tag.image?.isSome

/-- Whether the content of a tag becomes one string. -/
def Tag.isFlat (tag : Tag) : Bool := tag.isVerbatim || tag.isImage

theorem Tag.children_node (tag : Tag) (inside : List Event) (nodes : List Node) :
    (tag.node inside nodes).children = if tag.isFlat then [] else nodes := by
  cases tag <;> rfl

namespace Event

/-! ## The events inside a tag -/

/-- The events up to the end of the tag that they are in, with `depth` more tags open. -/
def upToEnd : Nat → List Event → List Event
  | _, [] => []
  | depth, .start tag :: events => .start tag :: upToEnd (depth + 1) events
  | 0, .stop _ :: _ => []
  | depth + 1, .stop kind :: events => .stop kind :: upToEnd depth events
  | depth, event :: events => event :: upToEnd depth events

theorem upToEnd_plain {event : Event} (h : event.isPlain) (depth : Nat) (events : List Event) :
    upToEnd depth (event :: events) = event :: upToEnd depth events := by
  cases event with
  | start => cases h
  | stop => cases h
  | _ => cases depth <;> rfl

theorem upToEnd_append {inside : List Event} (h : Nested inside) (depth : Nat)
    (behind : List Event) : upToEnd depth (inside ++ behind) = inside ++ upToEnd depth behind := by
  induction h generalizing depth behind with
  | nil => rfl
  | plain hplain _ ih => rw [List.cons_append, upToEnd_plain hplain, ih, List.cons_append]
  | pair tag _ _ ihinside ihbehind =>
    rw [List.cons_append, List.append_assoc, List.cons_append, upToEnd, ihinside, upToEnd, ihbehind,
      List.cons_append, List.append_assoc, List.cons_append]

/-- The events inside a tag are those up to its end. -/
theorem upToEnd_pair {inside : List Event} (h : Nested inside) (kind : TagKind)
    (behind : List Event) : upToEnd 0 (inside ++ .stop kind :: behind) = inside := by
  rw [upToEnd_append h]
  exact List.append_nil inside

/-! ## Gathering from events -/

variable {α : Type}

/-- What is gathered from events: what `own` gives for each tag and the events inside it, and what
`leaf` gives for each event that encloses nothing, unless it is inside a tag whose content becomes a
string. The tags in `opened`, innermost first, are open in front of the events. -/
def gathered (own : Tag → List Event → List α) (leaf : Event → List α) (opened : List Tag) :
    List Event → List α
  | [] => []
  | .start tag :: events =>
    (if opened.any Tag.isFlat then [] else own tag (upToEnd 0 events))
      ++ gathered own leaf (tag :: opened) events
  | .stop _ :: events => gathered own leaf opened.tail events
  | event :: events =>
    (if opened.any Tag.isFlat then [] else leaf event) ++ gathered own leaf opened events

variable {own : Tag → List Event → List α} {leaf : Event → List α}

/-- The tags that events open, but not inside a tag whose content becomes a string, and the events
inside them. -/
def tags (events : List Event) : List (Tag × List Event) :=
  gathered (fun tag inside => [(tag, inside)]) (fun _ => []) [] events

theorem gathered_plain {event : Event} (h : event.isPlain) (opened : List Tag)
    (events : List Event) :
    gathered own leaf opened (event :: events)
      = (if opened.any Tag.isFlat then [] else leaf event) ++ gathered own leaf opened events := by
  cases event with
  | start => cases h
  | stop => cases h
  | _ => rfl

/-- Inside a tag whose content becomes a string nothing is gathered. -/
theorem gathered_flat {inside : List Event} (h : Nested inside) {opened : List Tag}
    (hopened : opened.any Tag.isFlat = true) (behind : List Event) :
    gathered own leaf opened (inside ++ behind) = gathered own leaf opened behind := by
  induction h generalizing opened behind with
  | nil => rfl
  | plain hplain _ ih =>
    rw [List.cons_append, gathered_plain hplain, ih hopened, if_pos hopened, List.nil_append]
  | pair tag _ _ ihinside ihbehind =>
    have hwithin : (tag :: opened).any Tag.isFlat = true := by simp [hopened]
    rw [List.cons_append, List.append_assoc, List.cons_append, gathered, ihinside hwithin,
      gathered, List.tail_cons, ihbehind hopened, if_pos hopened, List.nil_append]

/-- What is gathered depends only on what the tags give that are open, with the events in them. -/
theorem gathered_congr {own' : Tag → List Event → List α} {opened : List Tag} {events : List Event}
    (h : ∀ tag inside,
      (tag, inside) ∈ gathered (fun tag inside => [(tag, inside)]) (fun _ => []) opened events →
        own tag inside = own' tag inside) :
    gathered own leaf opened events = gathered own' leaf opened events := by
  induction events generalizing opened with
  | nil => rfl
  | cons event events ih =>
    rcases event.start_or_stop_or_plain with ⟨tag, rfl⟩ | ⟨kind, rfl⟩ | hplain
    · rw [gathered] at h
      have hrest := ih fun t inside ht => h t inside (List.mem_append_right _ ht)
      rw [gathered, gathered, hrest]
      by_cases hopened : opened.any Tag.isFlat = true
      · rw [if_pos hopened, if_pos hopened]
      · rw [if_neg hopened] at h
        have htag := h tag (upToEnd 0 events) (List.mem_append_left _ (List.mem_singleton_self _))
        rw [if_neg hopened, if_neg hopened, htag]
    · rw [gathered, gathered]
      exact ih h
    · rw [gathered_plain hplain] at h
      rw [gathered_plain hplain, gathered_plain hplain]
      rw [ih fun t inside ht => h t inside (List.mem_append_right _ ht)]

end Event

/-! ## Gathering from nodes -/

namespace Node

section Gathered

variable {α : Type} {f : Node → List α} (htext : ∀ value, f (.text value) = [])

include htext

theorem flatMap_joinTexts (nodes : List Node) : (joinTexts nodes).flatMap f = nodes.flatMap f := by
  induction nodes with
  | nil => rfl
  | cons node nodes ih =>
    rw [joinTexts, List.flatMap_cons, ← ih]
    unfold consJoined
    split
    next a b rest hrest =>
      rw [hrest, List.flatMap_cons, List.flatMap_cons, htext, htext, htext]
      rfl
    · rw [List.flatMap_cons]

theorem flatMap_wrapRuns (hparagraph : ∀ cs, f (.paragraph cs) = cs.flatMap f) (run : List Node)
    (pieces : List Piece) :
    (wrapRuns run pieces).flatMap f
      = run.reverse.flatMap f ++ (pieces.map Piece.node).flatMap f := by
  have hrun : ∀ run : List Node, (wrapRun run).flatMap f = run.flatMap f := by
    intro run
    unfold wrapRun
    split
    next hempty => rw [List.isEmpty_iff.mp hempty]
    · rw [List.flatMap_singleton, hparagraph, flatMap_joinTexts htext]
  induction pieces generalizing run with
  | nil => rw [wrapRuns, hrun, List.map_nil, List.flatMap_nil, List.append_nil]
  | cons piece pieces ih =>
    obtain ⟨isBlock, node⟩ := piece
    cases isBlock with
    | true =>
      rw [wrapRuns, List.flatMap_append, hrun, List.flatMap_cons, ih]
      simp
    | false =>
      rw [wrapRuns, ih]
      simp

end Gathered

end Node

/-- What is taken from nodes can be read off the events that they are made of. -/
structure Gathers {α : Type} (f : Node → List α) (own : Tag → List Event → List α)
    (leaf : Event → List α) : Prop where
  /-- From what joining, wrapping and linking make nothing is taken. -/
  text : ∀ value, f (.text value) = []
  paragraph : ∀ cs, f (.paragraph cs) = []
  root : ∀ cs, f (.root cs) = []
  literal : ∀ url value, f (.link url [.text value]) = []
  /-- What is taken from a node does not depend on the nodes below it, which may be linked. -/
  around : ∀ (shell : Node.Shell) (cs cs' : List Node), (∀ url, shell ≠ .link url) →
    f (shell.around cs) = f (shell.around cs')
  /-- The nodes of tags give what is read off the events inside them. -/
  tag : ∀ (tag : Tag) (inside : List Event), Event.Nested inside →
    f (tag.node inside (tag.content (Piece.ofEvents inside))) = own tag inside
  /-- The nodes of all other events give what is read off these. -/
  leaf : ∀ event : Event, event.isPlain → event.leaf?.toList.flatMap f = leaf event

namespace Gathers

variable {α : Type} {f : Node → List α} {own : Tag → List Event → List α} {leaf : Event → List α}
  (hf : Gathers f own leaf)

include hf

theorem preorder_text (value : String) : (Node.text value).preorder.flatMap f = [] := by
  rw [Node.flatMap_preorder, hf.text]
  rfl

/-- What the content of a tag gives is what the pieces in it give. -/
theorem flatMap_content (tag : Tag) (pieces : List Piece) :
    ((tag.content pieces).flatMap fun node => node.preorder.flatMap f)
      = (pieces.map Piece.node).flatMap fun node => node.preorder.flatMap f := by
  have hparagraph : ∀ cs, (Node.paragraph cs).preorder.flatMap f
      = cs.flatMap fun node => node.preorder.flatMap f := by
    intro cs
    rw [Node.flatMap_preorder, hf.paragraph]
    rfl
  cases tag with
  | item => exact Node.flatMap_wrapRuns hf.preorder_text hparagraph [] pieces
  | _ => exact Node.flatMap_joinTexts hf.preorder_text _

theorem flatMap_node {inside : List Event} (h : Event.Nested inside) (tag : Tag) :
    (tag.node inside (tag.content (Piece.ofEvents inside))).preorder.flatMap f
      = own tag inside ++ if tag.isFlat then []
          else ((Piece.ofEvents inside).map Piece.node).flatMap fun node => node.preorder.flatMap f := by
  rw [Node.flatMap_preorder, hf.tag tag inside h, tag.children_node]
  by_cases hflat : tag.isFlat = true
  · rw [if_pos hflat, if_pos hflat]
    rfl
  · rw [if_neg hflat, if_neg hflat, hf.flatMap_content]

theorem flatMap_leaf? {event : Event} (h : event.isPlain) :
    (event.leaf?.toList.flatMap fun node => node.preorder.flatMap f) = leaf event := by
  rw [← hf.leaf event h]
  apply List.flatMap_congr
  intro node hnode
  rw [Node.flatMap_preorder, Event.children_leaf? (Option.mem_toList.mp hnode)]
  exact List.append_nil (f node)

/-- **What the nodes give that events become is what the events give**, and what follows gives its
own. -/
theorem gathered_append {inside : List Event} (h : Event.Nested inside) {opened : List Tag}
    (hopened : opened.any Tag.isFlat = false) (behind : List Event) :
    Event.gathered own leaf opened (inside ++ behind)
      = (((Piece.ofEvents inside).map Piece.node).flatMap fun node => node.preorder.flatMap f)
        ++ Event.gathered own leaf opened behind := by
  have hthrough : ¬opened.any Tag.isFlat = true := by simp [hopened]
  induction h generalizing behind opened with
  | nil =>
    rw [Piece.ofEvents]
    rfl
  | plain hplain _ ih =>
    rw [List.cons_append, Event.gathered_plain hplain, ih hopened behind hthrough,
      Piece.map_node_ofEvents_cons hplain, List.flatMap_append, hf.flatMap_leaf? hplain,
      if_neg hthrough, List.append_assoc]
  | @pair within rest tag hwithin _ ihwithin ihrest =>
    have hstop : Event.gathered own leaf (tag :: opened) (.stop tag.kind :: (rest ++ behind))
        = Event.gathered own leaf opened (rest ++ behind) := by
      rw [Event.gathered, List.tail_cons]
    -- The tag itself comes first, then what it lets through of its content, then the rest.
    have hcontent : Event.gathered own leaf (tag :: opened)
          (within ++ .stop tag.kind :: (rest ++ behind))
        = (if tag.isFlat then []
            else ((Piece.ofEvents within).map Piece.node).flatMap fun node => node.preorder.flatMap f)
          ++ Event.gathered own leaf opened (rest ++ behind) := by
      by_cases hflat : tag.isFlat = true
      · rw [Event.gathered_flat hwithin (by simp [hflat]), hstop, if_pos hflat, List.nil_append]
      · have hinner : (tag :: opened).any Tag.isFlat = false := by simp [hflat, hopened]
        rw [ihwithin hinner _ (by simp [hinner]), hstop, if_neg hflat]
    rw [List.cons_append, List.append_assoc, List.cons_append, Event.gathered, if_neg hthrough,
      Event.upToEnd_pair hwithin, hcontent, ihrest hopened behind hthrough,
      Piece.ofEvents_pair hwithin, List.map_cons, List.flatMap_cons, hf.flatMap_node hwithin]
    simp only [List.append_assoc]

theorem flatMap_linkLiterals (tree : Node) :
    tree.linkLiterals.preorder.flatMap f = tree.preorder.flatMap f :=
  (Node.linked_linkLiterals tree).flatMap_preorder hf.text hf.literal hf.around

/-- **What a tree gives is what its events give**, whether its literals are linked or not. -/
theorem gathered_treeOf (options : Markdown.Options) {events : List Event}
    (h : Event.wellNested events = true) :
    (Markdown.treeOf options events).preorder.flatMap f = Event.gathered own leaf [] events := by
  have hroot : (Node.root (Node.ofEvents events)).preorder.flatMap f
      = Event.gathered own leaf [] events := by
    have hnone : ([] : List Tag).any Tag.isFlat = false := rfl
    have hevents := hf.gathered_append (Event.wellNested_iff.mp h) hnone []
    rw [List.append_nil] at hevents
    rw [Node.flatMap_preorder, hf.root, hevents]
    show [] ++ (Node.ofEvents events).flatMap _ = _ ++ []
    rw [List.nil_append, List.append_nil, Node.ofEvents,
      Node.flatMap_joinTexts hf.preorder_text]
  unfold Markdown.treeOf
  dsimp only
  split
  · rw [hf.flatMap_linkLiterals, hroot]
  · exact hroot

end Gathers

end Bracketdown
