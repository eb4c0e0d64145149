import Bracketdown.Proofs.Event.Nesting
import Bracketdown.Proofs.Node.Joining
import Mathlib.Data.List.Chain

/-!
# Tight and loose list items

A list item that holds the same blocks and the same inline content can come in two lists of events.
In a loose item each run of inline content stands in a paragraph, in a tight one it stands bare. The
reader takes them apart in different ways: a bare run is gathered piece by piece until a block
comes, a paragraph is one piece that is read on its own. And it looks for the box of a task in the
first two events, which are different ones. `ofEvents_item` says that the item is the same.

The content of an item is a list of `Section`s here, and `IsBody` says which lists are meant. That
no two runs are neighbours is what keeps a run the same run: bare, two would be one.
-/

namespace Bracketdown

namespace Event

/-- Well nested events that open no block, apart from those inside other tags. -/
inductive Inline : List Event → Prop where
  | nil : Inline []
  | plain {event : Event} {events : List Event} (hplain : event.isPlain) (hrule : event ≠ .rule)
      (h : Inline events) : Inline (event :: events)
  | pair {inside behind : List Event} (tag : Tag) (htag : tag.isBlock = false)
      (hinside : Nested inside) (hbehind : Inline behind) :
      Inline (.start tag :: (inside ++ .stop tag.kind :: behind))

/-- One block: a rule, or a tag that opens a block with everything up to its end. -/
inductive IsBlock : List Event → Prop where
  | rule : IsBlock [.rule]
  | group {inside : List Event} (tag : Tag) (htag : tag.isBlock = true) (hinside : Nested inside) :
      IsBlock (.start tag :: (inside ++ [.stop tag.kind]))

theorem Inline.nested {events : List Event} (h : Inline events) : Nested events := by
  induction h with
  | nil => exact .nil
  | plain hplain _ _ ih => exact .plain hplain ih
  | pair tag _ hinside _ ih => exact .pair tag hinside ih

theorem IsBlock.nested {events : List Event} (h : IsBlock events) : Nested events := by
  cases h with
  | rule => exact .plain rfl .nil
  | group tag _ hinside => exact .pair tag hinside .nil

/-- The pieces of inline content are inline. -/
theorem Inline.isBlock_eq_false {events : List Event} (h : Inline events) :
    ∀ piece ∈ Piece.ofEvents events, piece.isBlock = false := by
  induction h with
  | nil =>
    rw [Piece.ofEvents]
    exact fun _ h => absurd h List.not_mem_nil
  | @plain event events hplain hrule _ ih =>
    rw [Piece.ofEvents_plain hplain]
    intro piece hpiece
    rcases List.mem_append.mp hpiece with hpiece | hpiece
    · rw [Option.mem_toList, piece?] at hpiece
      obtain ⟨node, -, rfl⟩ := Option.map_eq_some_iff.mp hpiece
      exact decide_eq_false hrule
    · exact ih piece hpiece
  | pair tag htag hinside _ ih =>
    rw [Piece.ofEvents_pair hinside]
    intro piece hpiece
    rcases List.mem_cons.mp hpiece with rfl | hpiece
    · exact htag
    · exact ih piece hpiece

theorem ofEvents_group {inside : List Event} (h : Nested inside) (tag : Tag) :
    Piece.ofEvents (.start tag :: (inside ++ [.stop tag.kind]))
      = [⟨tag.isBlock, tag.node inside (tag.content (Piece.ofEvents inside))⟩] := by
  rw [Piece.ofEvents_pair h, Piece.ofEvents]

/-- A block is one piece. -/
theorem IsBlock.ofEvents_eq {events : List Event} (h : IsBlock events) :
    ∃ node, Piece.ofEvents events = [⟨true, node⟩] := by
  cases h with
  | rule => exact ⟨_, by rw [Piece.ofEvents_plain rfl, Piece.ofEvents]; rfl⟩
  | group tag htag hinside =>
    rw [ofEvents_group hinside, htag]
    exact ⟨_, rfl⟩

theorem IsBlock.ne_nil {events : List Event} (h : IsBlock events) : events ≠ [] := by
  cases h with
  | rule => exact List.cons_ne_nil _ _
  | group => exact List.cons_ne_nil _ _

/-! ## The box of an item -/

/-- The first event, if there is one, is no box. -/
def Boxless (events : List Event) : Prop := ∀ checked, events.head? ≠ some (.taskMarker checked)

theorem IsBlock.boxless {events : List Event} (h : IsBlock events) (rest : List Event) :
    Boxless (events ++ rest) := by
  intro checked hfirst
  cases h with
  | rule => cases hfirst
  | group => cases hfirst

/-- Without a box in the second place the box is the first event. -/
theorem checked?_cons {events : List Event} (h : Boxless events) (first : Event) :
    checked? (first :: events) = checked? [first] := by
  cases events with
  | nil => rfl
  | cons second events =>
    cases second with
    | taskMarker checked => exact absurd rfl (h checked)
    | _ => cases first <;> rfl

/-- What follows the first event matters only if it starts with a box. -/
theorem checked?_append_congr {events rest rest' : List Event} (hne : events ≠ [])
    (h : Boxless rest) (h' : Boxless rest') :
    checked? (events ++ rest) = checked? (events ++ rest') := by
  match events with
  | [] => exact absurd rfl hne
  | [first] =>
    show checked? (first :: rest) = checked? (first :: rest')
    rw [checked?_cons h, checked?_cons h']
  | first :: second :: events =>
    show checked? (first :: second :: (events ++ rest)) = checked? (first :: second :: (events ++ rest'))
    cases first <;> cases second <;> rfl

/-- In front of the events of a run the start of a paragraph hides no box. -/
theorem checked?_paragraph (first : Event) (events : List Event) :
    checked? (.start .paragraph :: first :: events) = checked? [first] := by
  cases first <;> rfl

end Event

/-! ## Runs -/

namespace Node

/-- Inline pieces go on with the run. -/
theorem wrapRuns_inline {pieces : List Piece} (h : ∀ piece ∈ pieces, piece.isBlock = false)
    (run : List Node) (rest : List Piece) :
    wrapRuns run (pieces ++ rest) = wrapRuns ((pieces.map Piece.node).reverse ++ run) rest := by
  induction pieces generalizing run with
  | nil => rfl
  | cons piece pieces ih =>
    obtain ⟨isBlock, node⟩ := piece
    cases h _ (List.mem_cons_self ..)
    show wrapRuns (node :: run) (pieces ++ rest) = _
    rw [ih fun piece hpiece => h piece (List.mem_cons_of_mem _ hpiece), List.map_cons,
      List.reverse_cons, List.append_assoc, List.singleton_append]

/-- A block, or the end, closes the run. -/
theorem wrapRuns_of_block {pieces : List Piece} (h : ∀ piece ∈ pieces.head?, piece.isBlock = true)
    (run : List Node) : wrapRuns run pieces = wrapRun run.reverse ++ wrapRuns [] pieces := by
  cases pieces with
  | nil => exact (List.append_nil _).symm
  | cons piece pieces =>
    obtain ⟨isBlock, node⟩ := piece
    cases h _ rfl
    rfl

end Node

/-! ## The content of an item -/

/-- A part of the content of a list item. -/
inductive Section where
  /-- Inline content up to the next block. -/
  | run (events : List Event)
  | block (events : List Event)

namespace Section

/-- The events of a part in a tight item. -/
def bare : Section → List Event
  | .run events => events
  | .block events => events

/-- The events of a part in a loose item, where a run stands in a paragraph. -/
def enclosed : Section → List Event
  | .run events => .start .paragraph :: (events ++ [.stop .paragraph])
  | .block events => events

/-- The nodes that a part becomes. -/
def nodes : Section → List Node
  | .run events => [.paragraph (Node.ofEvents events)]
  | .block events => Node.ofEvents events

/-- The events of a part that stand outside the blocks. -/
def inline : Section → List Event
  | .run events => events
  | .block _ => []

/-- Whether a part is a run. -/
def isRun : Section → Bool
  | .run _ => true
  | .block _ => false

/-- What a part may be: a run is inline content with at least one node. -/
inductive IsPart : Section → Prop where
  | run {events : List Event} (hinline : Event.Inline events) (hnodes : Node.ofEvents events ≠ []) :
      IsPart (.run events)
  | block {events : List Event} (hblock : Event.IsBlock events) : IsPart (.block events)

/-- Not both parts are runs. -/
def Parted (first second : Section) : Prop := (first.isRun && second.isRun) = false

instance : DecidableRel Parted := fun first second =>
  inferInstanceAs (Decidable ((first.isRun && second.isRun) = false))

/-- The parts of an item. -/
structure IsBody (body : List Section) : Prop where
  parts : ∀ part ∈ body, IsPart part
  parted : body.IsChain Parted
  /-- The run that opens the item may have a box in front. -/
  firstBox : ∀ part ∈ body.head?, ∀ checked, .taskMarker checked ∉ part.inline.tail
  /-- There is no other box outside the blocks. -/
  boxes : ∀ part ∈ body.tail, ∀ checked, .taskMarker checked ∉ part.inline

/-- The events of a list item. -/
def item (spell : Section → List Event) (body : List Section) : List Event :=
  .start .item :: (body.flatMap spell ++ [.stop .item])

variable {part : Section} {body : List Section}

theorem IsPart.nested_bare (h : IsPart part) : Event.Nested part.bare := by
  cases h with
  | run hinline => exact hinline.nested
  | block hblock => exact hblock.nested

theorem IsPart.nested_enclosed (h : IsPart part) : Event.Nested part.enclosed := by
  cases h with
  | run hinline => exact .pair .paragraph hinline.nested .nil
  | block hblock => exact hblock.nested

/-- In a loose item every part is one block. -/
theorem IsPart.ofEvents_enclosed (h : IsPart part) :
    ∃ node, Piece.ofEvents part.enclosed = [⟨true, node⟩] ∧ part.nodes = [node] := by
  cases h with
  | run hinline =>
    exact ⟨_, Event.ofEvents_group hinline.nested .paragraph, rfl⟩
  | block hblock =>
    obtain ⟨node, hnode⟩ := hblock.ofEvents_eq
    refine ⟨node, hnode, ?_⟩
    rw [nodes, Node.ofEvents, hnode]
    exact Node.consJoined_nil node

theorem nested_flatMap {spell : Section → List Event}
    (h : ∀ part ∈ body, Event.Nested (spell part)) : Event.Nested (body.flatMap spell) := by
  induction body with
  | nil => exact .nil
  | cons part body ih =>
    rw [List.flatMap_cons]
    exact (h part (List.mem_cons_self ..)).append
      (ih fun part hpart => h part (List.mem_cons_of_mem _ hpart))

/-- The pieces of an item's content are those of its parts. -/
theorem ofEvents_flatMap {spell : Section → List Event}
    (h : ∀ part ∈ body, Event.Nested (spell part)) :
    Piece.ofEvents (body.flatMap spell) = body.flatMap fun part => Piece.ofEvents (spell part) := by
  induction body with
  | nil =>
    rw [List.flatMap_nil, Piece.ofEvents]
    rfl
  | cons part body ih =>
    rw [List.flatMap_cons, Piece.ofEvents_append (h part (List.mem_cons_self ..)), List.flatMap_cons,
      ih fun part hpart => h part (List.mem_cons_of_mem _ hpart)]

/-! ## The children -/

/-- Bare runs are gathered into the paragraphs that they are. -/
theorem wrapRuns_bare (hparts : ∀ part ∈ body, IsPart part) (hparted : body.IsChain Parted) :
    Node.wrapRuns [] (body.flatMap fun part => Piece.ofEvents part.bare) = body.flatMap nodes := by
  induction body with
  | nil => rfl
  | cons part body ih =>
    obtain ⟨hfirst, hparted⟩ := List.isChain_cons.mp hparted
    have hrest := ih (fun part hpart => hparts part (List.mem_cons_of_mem _ hpart)) hparted
    rw [List.flatMap_cons, List.flatMap_cons]
    cases hparts part (List.mem_cons_self ..) with
    | @run events hinline hnodes =>
      -- Behind a run there is a block or nothing.
      have hblock : ∀ piece ∈ (body.flatMap fun part => Piece.ofEvents part.bare).head?,
          piece.isBlock = true := by
        cases body with
        | nil => exact fun _ h => by cases h
        | cons next body =>
          cases hparts next (List.mem_cons_of_mem _ (List.mem_cons_self ..)) with
          | run => cases hfirst _ rfl
          | block hblock =>
            obtain ⟨node, hnode⟩ := hblock.ofEvents_eq
            rw [List.flatMap_cons, bare, hnode]
            rintro piece hpiece
            cases hpiece
            rfl
      rw [bare, Node.wrapRuns_inline hinline.isBlock_eq_false, Node.wrapRuns_of_block hblock, hrest,
        List.append_nil, List.reverse_reverse, Node.wrapRun, nodes]
      rw [Node.ofEvents, ne_eq, Node.joinTexts_eq_nil] at hnodes
      rw [if_neg (mt List.isEmpty_iff.mp hnodes)]
      rfl
    | @block events hblock =>
      obtain ⟨node, hpiece, hnode⟩ := (IsPart.block hblock).ofEvents_enclosed
      rw [hnode, ← hrest]
      exact congrArg (fun pieces => Node.wrapRuns [] (pieces ++ _)) hpiece

/-- In paragraphs they are blocks already. -/
theorem wrapRuns_enclosed (hparts : ∀ part ∈ body, IsPart part) :
    Node.wrapRuns [] (body.flatMap fun part => Piece.ofEvents part.enclosed)
      = body.flatMap nodes := by
  induction body with
  | nil => rfl
  | cons part body ih =>
    obtain ⟨node, hpiece, hnode⟩ := (hparts part (List.mem_cons_self ..)).ofEvents_enclosed
    rw [List.flatMap_cons, List.flatMap_cons, hpiece, hnode]
    exact congrArg (node :: ·) (ih fun part hpart => hparts part (List.mem_cons_of_mem _ hpart))

/-! ## The box -/

/-- A run has events. -/
theorem ne_nil_of_ofEvents {events : List Event} (h : Node.ofEvents events ≠ []) : events ≠ [] := by
  rintro rfl
  rw [Node.ofEvents, Piece.ofEvents] at h
  exact h rfl

/-- Behind its first part an item has no box outside its blocks. -/
theorem boxless_bare {first : Section} (h : IsBody (first :: body)) :
    Event.Boxless (body.flatMap bare) := by
  intro checked hbox
  cases body with
  | nil => cases hbox
  | cons next body =>
    rw [List.flatMap_cons] at hbox
    cases h.parts next (List.mem_cons_of_mem _ (List.mem_cons_self ..)) with
    | @run events _ hnodes =>
      obtain ⟨event, events, rfl⟩ := List.exists_cons_of_ne_nil (ne_nil_of_ofEvents hnodes)
      cases hbox
      exact h.boxes _ (List.mem_cons_self ..) checked (List.mem_cons_self ..)
    | block hblock => exact hblock.boxless _ checked hbox

theorem boxless_enclosed (hparts : ∀ part ∈ body, IsPart part) :
    Event.Boxless (body.flatMap enclosed) := by
  intro checked hbox
  cases body with
  | nil => cases hbox
  | cons part body =>
    cases hparts part (List.mem_cons_self ..) with
    | run => cases hbox
    | block hblock => exact hblock.boxless _ checked hbox

/-- In a run the box is the first event. -/
theorem boxless_tail {event : Event} {events : List Event}
    (h : IsBody (.run (event :: events) :: body)) :
    Event.Boxless (events ++ body.flatMap bare) := by
  cases events with
  | nil => exact boxless_bare h
  | cons second events =>
    intro checked hbox
    cases hbox
    exact h.firstBox _ rfl checked (List.mem_cons_self ..)

/-- The box is found in the tight item where it is found in the loose one. -/
theorem checked?_bare (h : IsBody body) :
    Event.checked? (body.flatMap bare) = Event.checked? (body.flatMap enclosed) := by
  cases body with
  | nil => rfl
  | cons first body =>
    have hparts : ∀ part ∈ body, IsPart part := fun part hpart =>
      h.parts part (List.mem_cons_of_mem _ hpart)
    rw [List.flatMap_cons, List.flatMap_cons]
    cases h.parts first (List.mem_cons_self ..) with
    | @run events _ hnodes =>
      obtain ⟨event, events, rfl⟩ := List.exists_cons_of_ne_nil (ne_nil_of_ofEvents hnodes)
      have htight := Event.checked?_cons (boxless_tail h) event
      exact htight.trans (Event.checked?_paragraph event _).symm
    | block hblock =>
      exact Event.checked?_append_congr hblock.ne_nil (boxless_bare h) (boxless_enclosed hparts)

/-! ## Items -/

/-- An item is read as its box and what its parts become. -/
theorem ofEvents_item_of_wrapRuns {spell : Section → List Event}
    (hnested : ∀ part ∈ body, Event.Nested (spell part))
    (hchildren : Node.wrapRuns [] (body.flatMap fun part => Piece.ofEvents (spell part))
      = body.flatMap nodes) (behind : List Event) :
    Piece.ofEvents (item spell body ++ behind)
      = ⟨true, .listItem (Event.checked? (body.flatMap spell)) (body.flatMap nodes)⟩
        :: Piece.ofEvents behind := by
  have hpair := Piece.ofEvents_pair (nested_flatMap hnested) .item behind
  rw [Tag.content, ofEvents_flatMap hnested, hchildren] at hpair
  rw [item, List.cons_append, List.append_assoc]
  exact hpair

/-- **Tight and loose items mean the same**: whether the runs of an item stand bare or in
paragraphs, and whatever follows the item, its box and its children are the same. -/
theorem ofEvents_item (h : IsBody body) (behind : List Event) :
    Piece.ofEvents (item bare body ++ behind)
        = ⟨true, .listItem (Event.checked? (body.flatMap bare)) (body.flatMap nodes)⟩
          :: Piece.ofEvents behind
      ∧ Piece.ofEvents (item enclosed body ++ behind) = Piece.ofEvents (item bare body ++ behind) := by
  have htight := ofEvents_item_of_wrapRuns (fun part hpart => (h.parts part hpart).nested_bare)
    (wrapRuns_bare h.parts h.parted) behind
  have hloose := ofEvents_item_of_wrapRuns
    (fun part hpart => (h.parts part hpart).nested_enclosed) (wrapRuns_enclosed h.parts) behind
  rw [← checked?_bare h] at hloose
  exact ⟨htight, hloose.trans htight.symm⟩

/-- A task with emphasis in it, another task in a list below it, and a line behind the list. -/
theorem ofEvents_item_task :
    let body : List Section :=
      [.run [.taskMarker true, .text "a", .softBreak, .start .emphasis, .text "b", .stop .emphasis],
        .block [.start (.list none), .start .item, .taskMarker false, .text "c", .stop .item,
          .stop .list],
        .run [.text "d"]]
    IsBody body
      ∧ Piece.ofEvents (item bare body ++ [.rule])
        = ⟨true, .listItem (some true) (body.flatMap nodes)⟩ :: Piece.ofEvents [.rule]
      ∧ Piece.ofEvents (item enclosed body ++ [.rule])
        = Piece.ofEvents (item bare body ++ [.rule]) := by
  intro body
  have hemphasis : Event.Inline [.start .emphasis, .text "b", .stop .emphasis] :=
    .pair .emphasis rfl (.plain rfl .nil) .nil
  have hitem : Event.Nested [.start .item, .taskMarker false, .text "c", .stop .item] :=
    .pair .item (.plain rfl (.plain rfl .nil)) .nil
  have hbody : IsBody body := by
    refine ⟨fun part hpart => ?_, by decide, by decide, by decide⟩
    simp only [body, List.mem_cons, List.not_mem_nil, or_false] at hpart
    rcases hpart with rfl | rfl | rfl
    · refine .run (.plain rfl nofun (.plain rfl nofun (.plain rfl nofun hemphasis))) ?_
      exact List.isEmpty_eq_false_iff.mp (by decide +kernel)
    · exact .block (.group (.list none) rfl hitem)
    · exact .run (.plain rfl nofun .nil) (List.isEmpty_eq_false_iff.mp (by decide +kernel))
  obtain ⟨htight, hloose⟩ := ofEvents_item hbody [.rule]
  exact ⟨hbody, htight, hloose⟩

end Section

end Bracketdown
