import Bracketdown.Markdown.Document
import Bracketdown.Markup.Writer
import Bracketdown.Proofs.Event.Builder
import Mathlib.Data.List.Chain

/-!
# How a text is cut into events

A Markdown parser may deliver one text in any number of pieces, with soft breaks as events of their
own between them. `fused` forgets the cuts: it puts every block of texts and soft breaks together
into one text. `treeOf_congr_fused` says that a tree depends on no more than that, whether its
addresses are linked or not.

Events are joined at two places, among the children of a tag and in the runs of an item, and counted
at one: the box of an item is looked for in its first two events. The first is dealt with on the
pieces of a list, where `Piece.joined` forgets the cuts as `fused` does on events: content depends
on the joined pieces only (`Tag.content_joined`), and fusing events does not change them
(`joined_ofEvents_fused`). For the second, a box must not slide to the front when the texts in front
of it are fused; it cannot if boxes stand where the parser puts them (`boxesPlaced`).
-/

namespace Bracketdown

namespace Event

/-! ## Fusing texts -/

/-- What an event adds to the text that it is part of; none if it is no part of a text. -/
def text? : Event → Option String
  | .text value => some value
  | .softBreak => some "\n"
  | _ => none

/-- Puts an event in front of others. What is part of a text becomes a text, which takes in the text
behind it. -/
def consFused (event : Event) (events : List Event) : List Event :=
  match event.text?, events with
  | some a, .text b :: rest => .text (a ++ b) :: rest
  | some a, rest => .text a :: rest
  | none, rest => event :: rest

/-- Fuses every block of texts and soft breaks that follow one another into one text. -/
def fused : List Event → List Event
  | [] => []
  | event :: events => consFused event (fused events)

theorem consFused_of_not_text {event : Event} (h : event.text? = none) (events : List Event) :
    consFused event events = event :: events := by
  unfold consFused
  rw [h]

theorem consFused_nil {event : Event} {a : String} (h : event.text? = some a) :
    consFused event [] = [.text a] := by
  unfold consFused
  rw [h]

theorem consFused_text {event : Event} {a : String} (h : event.text? = some a)
    (b : String) (events : List Event) :
    consFused event (.text b :: events) = .text (a ++ b) :: events := by
  unfold consFused
  rw [h]

/-- An event that is no part of a text parts the texts before it from those behind it. -/
theorem consFused_append {event : Event} (h : event.text? = none) (first : Event)
    (before behind : List Event) :
    consFused first (before ++ event :: behind) = consFused first before ++ event :: behind := by
  unfold consFused
  cases first.text? with
  | none => rfl
  | some a =>
    cases before with
    | nil =>
      cases event with
      | text | softBreak => cases h
      | _ => rfl
    | cons second before => cases second <;> rfl

theorem fused_append {event : Event} (h : event.text? = none) (before behind : List Event) :
    fused (before ++ event :: behind) = fused before ++ event :: fused behind := by
  induction before with
  | nil => exact consFused_of_not_text h (fused behind)
  | cons first before ih =>
    rw [List.cons_append, fused, ih, fused]
    exact consFused_append h first (fused before) (fused behind)

end Event

/-! ## Fusing pieces -/

namespace Node

theorem wrapRun_eq (run : List Node) :
    wrapRun run = if (joinTexts run).isEmpty then [] else [.paragraph (joinTexts run)] := by
  cases run with
  | nil => rfl
  | cons node run =>
    have hjoined : joinTexts (node :: run) ≠ [] := consJoined_ne_nil node (joinTexts run)
    rw [if_neg (mt List.isEmpty_iff.mp hjoined)]
    rfl

/-- What becomes of a run depends only on what it is when its texts are joined. -/
theorem wrapRuns_congr {run run' : List Node}
    (h : joinTexts run.reverse = joinTexts run'.reverse) (pieces : List Piece) :
    wrapRuns run pieces = wrapRuns run' pieces := by
  induction pieces generalizing run run' with
  | nil =>
    show wrapRun run.reverse = wrapRun run'.reverse
    rw [wrapRun_eq, wrapRun_eq, h]
  | cons piece pieces ih =>
    obtain ⟨isBlock, node⟩ := piece
    cases isBlock with
    | true =>
      show wrapRun run.reverse ++ node :: wrapRuns [] pieces
        = wrapRun run'.reverse ++ node :: wrapRuns [] pieces
      rw [wrapRun_eq, wrapRun_eq, h]
    | false =>
      refine ih ?_
      rw [List.reverse_cons, List.reverse_cons, joinTexts_append_singleton,
        joinTexts_append_singleton, h]

end Node

namespace Piece

/-- Puts a piece in front of others, joining two inline texts into one. -/
def consJoined : Piece → List Piece → List Piece
  | ⟨false, .text a⟩, ⟨false, .text b⟩ :: rest => ⟨false, .text (a ++ b)⟩ :: rest
  | piece, rest => piece :: rest

/-- Joins inline texts that follow one another. -/
def joined (pieces : List Piece) : List Piece := pieces.foldr consJoined []

theorem joined_append (pieces : List Piece) {rest rest' : List Piece}
    (h : joined rest = joined rest') : joined (pieces ++ rest) = joined (pieces ++ rest') := by
  unfold joined at h ⊢
  rw [List.foldr_append, List.foldr_append, h]

theorem consJoined_text_text (a b : String) (pieces : List Piece) :
    consJoined ⟨false, .text a⟩ (consJoined ⟨false, .text b⟩ pieces)
      = consJoined ⟨false, .text (a ++ b)⟩ pieces := by
  cases pieces with
  | nil => rfl
  | cons next pieces =>
    obtain ⟨isBlock, node⟩ := next
    cases isBlock with
    | true => rfl
    | false =>
      cases node with
      | text c =>
        show Piece.mk false (.text (a ++ (b ++ c))) :: pieces = ⟨false, .text (a ++ b ++ c)⟩ :: pieces
        rw [String.append_assoc]
      | _ => rfl

theorem joinTexts_consJoined (piece : Piece) (pieces : List Piece) :
    Node.joinTexts ((consJoined piece pieces).map node)
      = Node.joinTexts ((piece :: pieces).map node) := by
  unfold consJoined
  split
  next a b rest =>
    exact (Node.consJoined_text_text a b (Node.joinTexts (rest.map node))).symm
  · rfl

theorem wrapRuns_consJoined (run : List Node) (piece : Piece) (pieces : List Piece) :
    Node.wrapRuns run (consJoined piece pieces) = Node.wrapRuns run (piece :: pieces) := by
  unfold consJoined
  split
  next a b rest =>
    show Node.wrapRuns (.text (a ++ b) :: run) rest = Node.wrapRuns (.text b :: .text a :: run) rest
    refine Node.wrapRuns_congr ?_ rest
    simp only [List.reverse_cons, Node.joinTexts_append_singleton, List.reverse_reverse]
    rw [Node.pushJoined_text_text]
  · rfl

theorem joinTexts_joined (pieces : List Piece) :
    Node.joinTexts ((joined pieces).map node) = Node.joinTexts (pieces.map node) := by
  induction pieces with
  | nil => rfl
  | cons piece pieces ih =>
    show Node.joinTexts ((consJoined piece (joined pieces)).map node) = _
    rw [joinTexts_consJoined]
    exact congrArg (Node.consJoined piece.node) ih

theorem wrapRuns_joined (run : List Node) (pieces : List Piece) :
    Node.wrapRuns run (joined pieces) = Node.wrapRuns run pieces := by
  induction pieces generalizing run with
  | nil => rfl
  | cons piece pieces ih =>
    show Node.wrapRuns run (consJoined piece (joined pieces)) = _
    rw [wrapRuns_consJoined]
    obtain ⟨isBlock, node⟩ := piece
    cases isBlock with
    | true => exact congrArg (fun rest => Node.wrapRun run.reverse ++ node :: rest) (ih [])
    | false => exact ih (node :: run)

end Piece

/-- The content of a tag does not depend on how the texts in it are cut. -/
theorem Tag.content_joined (tag : Tag) (pieces : List Piece) :
    tag.content (Piece.joined pieces) = tag.content pieces := by
  cases tag with
  | item => exact Piece.wrapRuns_joined [] pieces
  | _ => exact Piece.joinTexts_joined pieces

theorem Tag.content_congr (tag : Tag) {pieces pieces' : List Piece}
    (h : Piece.joined pieces = Piece.joined pieces') : tag.content pieces = tag.content pieces' := by
  rw [← tag.content_joined pieces, h, tag.content_joined]

/-! ## The boxes of items -/

namespace Event

/-- Whether the box of an item may stand behind these events, last first: at the start of an item or
of the paragraph that opens it. -/
def awaitsBox : List Event → Bool
  | .start .item :: _ => true
  | .start .paragraph :: .start .item :: _ => true
  | _ => false

/-- Whether every task marker stands where the box of an item may stand. The events in `before`,
last first, are in front of the others. -/
def boxesPlaced (before : List Event) : List Event → Bool
  | [] => true
  | .taskMarker checked :: events =>
    awaitsBox before && boxesPlaced (.taskMarker checked :: before) events
  | event :: events => boxesPlaced (event :: before) events

/-- The two events may stand side by side: no box is behind a text. -/
def BoxBehindNoText (event next : Event) : Prop :=
  ∀ checked, next = .taskMarker checked → event.text? = none

theorem boxesPlaced_tail {event : Event} {before events : List Event}
    (h : boxesPlaced before (event :: events) = true) :
    boxesPlaced (event :: before) events = true := by
  cases event with
  | taskMarker checked =>
    rw [boxesPlaced, Bool.and_eq_true] at h
    exact h.2
  | _ => exact h

theorem isChain_of_boxesPlaced {before events : List Event}
    (h : boxesPlaced before events = true) : List.IsChain BoxBehindNoText events := by
  induction events generalizing before with
  | nil => exact List.isChain_nil
  | cons event events ih =>
    have htail := boxesPlaced_tail h
    cases events with
    | nil => exact List.isChain_singleton _
    | cons next events =>
      rw [List.isChain_cons_cons]
      refine ⟨?_, ih htail⟩
      rintro checked rfl
      -- A box is awaited behind a start only.
      rw [boxesPlaced, Bool.and_eq_true] at htail
      cases event with
      | text | softBreak => cases htail.1
      | _ => rfl

/-- A block of texts becomes one text, with no box behind it. -/
theorem exists_fused_eq {event : Event} {a : String} (h : event.text? = some a)
    {events : List Event} (hboxes : List.IsChain BoxBehindNoText (event :: events)) :
    ∃ s rest, fused (event :: events) = .text s :: rest
      ∧ ∀ checked behind, rest ≠ .taskMarker checked :: behind := by
  induction events generalizing event a with
  | nil =>
    refine ⟨a, [], consFused_nil h, ?_⟩
    intro checked behind hrest
    cases hrest
  | cons next events ih =>
    rw [List.isChain_cons_cons] at hboxes
    obtain ⟨hnext, hboxes⟩ := hboxes
    rw [fused]
    cases htext : next.text? with
    | some b =>
      obtain ⟨s, rest, hfused, hrest⟩ := ih htext hboxes
      rw [hfused]
      exact ⟨a ++ s, rest, consFused_text h s rest, hrest⟩
    | none =>
      have hfused : fused (next :: events) = next :: fused events :=
        consFused_of_not_text htext (fused events)
      have happend := consFused_append htext event [] (fused events)
      rw [consFused_nil h] at happend
      rw [hfused]
      refine ⟨a, next :: fused events, happend, ?_⟩
      intro checked behind hmarker
      have hevent := hnext checked (List.cons.inj hmarker).1
      rw [h] at hevent
      cases hevent

/-- A text in the second place is not the box of an item. -/
theorem checked?_text_second {second : Event} {b : String} (h : second.text? = some b)
    (first : Event) (rest : List Event) : checked? (first :: second :: rest) = checked? [first] := by
  cases second with
  | text | softBreak => cases first <;> rfl
  | _ => cases h

/-- A text in the first place is not, and then what follows matters. -/
theorem checked?_text_first {first : Event} {a : String} (h : first.text? = some a)
    {rest : List Event} (hrest : ∀ checked behind, rest ≠ .taskMarker checked :: behind) :
    checked? (first :: rest) = none := by
  have hfirst : ∀ checked, first ≠ .taskMarker checked := by
    rintro checked rfl
    cases h
  unfold checked?
  split
  next checked behind heq => exact absurd (List.cons.inj heq).1 (hfirst checked)
  next _ heq => exact absurd (List.cons.inj heq).2 (hrest _ _)
  · rfl

/-- Fusing texts leaves the box of an item as it is. -/
theorem checked?_fused {events : List Event} (h : List.IsChain BoxBehindNoText events) :
    checked? (fused events) = checked? events := by
  match events with
  | [] => rfl
  | first :: rest =>
    cases hfirst : first.text? with
    | some a =>
      obtain ⟨s, rest', hfused, hrest'⟩ := exists_fused_eq hfirst h
      have hrest : ∀ checked behind, rest ≠ .taskMarker checked :: behind := by
        rintro checked behind rfl
        have hnone := (List.isChain_cons_cons.mp h).1 checked rfl
        rw [hfirst] at hnone
        cases hnone
      have hs : (Event.text s).text? = some s := rfl
      rw [hfused, checked?_text_first hs hrest', checked?_text_first hfirst hrest]
    | none =>
      rw [fused, consFused_of_not_text hfirst]
      match rest with
      | [] => rfl
      | second :: rest =>
        cases hsecond : second.text? with
        | some b =>
          obtain ⟨s, rest', hfused, -⟩ := exists_fused_eq hsecond (List.isChain_cons_cons.mp h).2
          have hs : (Event.text s).text? = some s := rfl
          rw [hfused, checked?_text_second hs, checked?_text_second hsecond]
        | none =>
          -- The first two events stay as they are, and no more are looked at.
          rw [fused, consFused_of_not_text hsecond, ← checked?_take, ← checked?_take (_ :: _ :: rest)]
          rfl

/-! ## Whole lists -/

theorem nested_consFused {event : Event} {events : List Event} (hplain : event.isPlain)
    (h : Nested events) : Nested (consFused event events) := by
  unfold consFused
  split
  next b rest _ =>
    cases h with
    | plain _ hrest => exact .plain rfl hrest
  · exact .plain rfl h
  · exact .plain hplain h

theorem Nested.fused {events : List Event} (h : Nested events) : Nested (fused events) := by
  induction h with
  | nil => exact .nil
  | plain hplain _ ih => exact nested_consFused hplain ih
  | @pair inside behind tag _ _ ihinside ihbehind =>
    have hstart : (Event.start tag).text? = none := rfl
    have hstop : (Event.stop tag.kind).text? = none := rfl
    show Nested (consFused (.start tag) (Event.fused (inside ++ .stop tag.kind :: behind)))
    rw [consFused_of_not_text hstart, fused_append hstop]
    exact .pair tag ihinside ihbehind

end Event

namespace Piece

open Event (fused consFused Nested BoxBehindNoText)

/-- A text is an inline piece. -/
theorem piece?_of_text {event : Event} {a : String} (h : event.text? = some a) :
    event.piece? = some ⟨false, .text a⟩ := by
  cases event with
  | text | softBreak =>
    cases h
    rfl
  | _ => cases h

theorem ofEvents_text (a : String) (events : List Event) :
    ofEvents (.text a :: events) = ⟨false, .text a⟩ :: ofEvents events :=
  ofEvents_plain rfl events

/-- Putting an event in front of others is for the joined pieces the same with and without fusing.
-/
theorem joined_ofEvents_consFused {event : Event} (hplain : event.isPlain) (events : List Event) :
    joined (ofEvents (consFused event events)) = joined (ofEvents (event :: events)) := by
  cases htext : event.text? with
  | none => rw [Event.consFused_of_not_text htext]
  | some a =>
    have hpieces : ofEvents (event :: events) = ⟨false, .text a⟩ :: ofEvents events := by
      rw [ofEvents_plain hplain, piece?_of_text htext]
      rfl
    rw [hpieces]
    unfold consFused
    rw [htext]
    split
    next b rest heq =>
      cases heq
      rw [ofEvents_text, ofEvents_text]
      exact (consJoined_text_text a b (joined (ofEvents rest))).symm
    next heq _ =>
      cases heq
      rw [ofEvents_text]
    next heq => cases heq

/-- **Fusing the texts of a well nested list changes no piece of it**, except that texts are joined
already, if no box stands behind a text. -/
theorem joined_ofEvents_fused {events : List Event} (h : Nested events)
    (hboxes : List.IsChain BoxBehindNoText events) :
    joined (ofEvents (fused events)) = joined (ofEvents events) := by
  induction h with
  | nil => rfl
  | @plain event events hplain _ ih =>
    show joined (ofEvents (consFused event (fused events))) = _
    rw [joined_ofEvents_consFused hplain, ofEvents_plain hplain, ofEvents_plain hplain]
    exact joined_append _ (ih hboxes.tail)
  | @pair inside behind tag hinside _ ihinside ihbehind =>
    have hstart : (Event.start tag).text? = none := rfl
    have hstop : (Event.stop tag.kind).text? = none := rfl
    have hboxesInside : List.IsChain BoxBehindNoText inside := hboxes.tail.left_of_append
    have hboxesBehind : List.IsChain BoxBehindNoText behind := hboxes.tail.right_of_append.tail
    have hcontent := tag.content_congr (ihinside hboxesInside)
    have hnode : tag.node (fused inside) (tag.content (ofEvents (fused inside)))
        = tag.node inside (tag.content (ofEvents inside)) := by
      rw [hcontent]
      cases tag with
      | item => exact congrArg (Node.listItem · _) (Event.checked?_fused hboxesInside)
      | _ => rfl
    show joined (ofEvents (consFused (.start tag) (fused (inside ++ .stop tag.kind :: behind)))) = _
    rw [Event.consFused_of_not_text hstart, Event.fused_append hstop, ofEvents_pair hinside.fused,
      ofEvents_pair hinside, hnode]
    exact joined_append [_] (ihbehind hboxesBehind)

end Piece

namespace Markdown

open Event (fused boxesPlaced wellNested)

theorem ofEvents_fused {events : List Event} (h : wellNested events = true)
    (hboxes : boxesPlaced [] events = true) :
    Node.ofEvents (fused events) = Node.ofEvents events :=
  Tag.content_congr .paragraph
    (Piece.joined_ofEvents_fused (Event.wellNested_iff.mp h) (Event.isChain_of_boxesPlaced hboxes))

/-- **A tree does not depend on how its texts are cut into events.** Two well nested lists with
their boxes in place that are the same once their texts are fused give the same tree with the same
options, and so the same markup and the same warnings. -/
theorem treeOf_congr_fused (options : Options) {events events' : List Event}
    (hnested : wellNested events = true) (hnested' : wellNested events' = true)
    (hboxes : boxesPlaced [] events = true) (hboxes' : boxesPlaced [] events' = true)
    (hfused : fused events = fused events') :
    treeOf options events = treeOf options events'
      ∧ Markup.emit (treeOf options events) = Markup.emit (treeOf options events') := by
  have hnodes : Node.ofEvents events = Node.ofEvents events' := by
    rw [← ofEvents_fused hnested hboxes, hfused, ofEvents_fused hnested' hboxes']
  have htree : treeOf options events = treeOf options events' := by
    unfold treeOf
    rw [hnodes]
  exact ⟨htree, congrArg Markup.emit htree⟩

/-- The box of a task, and an address over a cut. -/
theorem treeOf_congr_fused_task :
    treeOf {}
        [.start (.list none), .start .item, .start .paragraph, .taskMarker true, .text "see",
          .softBreak, .text "www.a", .text ".b", .stop .paragraph, .stop .item, .stop .list]
      = treeOf {}
        [.start (.list none), .start .item, .start .paragraph, .taskMarker true,
          .text "see\nwww.", .text "a.b", .stop .paragraph, .stop .item, .stop .list] :=
  (treeOf_congr_fused {} (by decide) (by decide) (by decide) (by decide) (by decide)).1

end Markdown

end Bracketdown
