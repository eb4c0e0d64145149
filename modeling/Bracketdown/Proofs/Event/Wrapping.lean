import Bracketdown.Proofs.Event.Fragments
import Bracketdown.Proofs.Event.Shape
import Bracketdown.Proofs.Event.Tightness
import Bracketdown.Proofs.Node.Linked
import Mathlib.Data.List.SplitBy

/-!
# What a list item is made of

The content of a list item is read like that of any other tag, except that inline content is wrapped
in paragraphs. The reader does both in one go: it gathers a run of inline nodes, joining texts in
it, until a block comes or the events end, and what is gathered then is a paragraph if it is
anything at all.

Here it is taken apart again. `ItemPart.ofEvents` reads the events as those of any other tag and
cuts the nodes into parts afterwards: a block is a part, and so are all nodes between two blocks.
`IsItem` says how the item follows from the parts, for any list of events whatever, and
`listItem_treeOf` that every list item of a tree is such an item, so that its children are
paragraphs and blocks.
-/

namespace Bracketdown

/-! ## Joined texts -/

namespace Node

/-- Not both nodes are texts. -/
def Apart (first second : Node) : Prop := (∀ a, first ≠ .text a) ∨ ∀ b, second ≠ .text b

theorem isChain_consJoined {nodes : List Node} (h : nodes.IsChain Apart) (node : Node) :
    (consJoined node nodes).IsChain Apart := by
  cases nodes with
  | nil =>
    rw [consJoined_nil]
    exact List.isChain_singleton _
  | cons second nodes =>
    rcases text_or_ne node with ⟨a, rfl⟩ | hnode
    · rcases text_or_ne second with ⟨b, rfl⟩ | hsecond
      · obtain ⟨hhead, htail⟩ := List.isChain_cons.mp h
        refine List.isChain_cons.mpr ⟨fun next hnext => .inr ?_, htail⟩
        -- What stands behind the second text is no text, so it may stand behind both.
        exact (hhead next hnext).resolve_left fun hne => hne b rfl
      · rw [consJoined_onto_ne_text hsecond]
        exact List.isChain_cons_cons.mpr ⟨.inr hsecond, h⟩
    · rw [consJoined_of_ne_text hnode]
      exact List.isChain_cons_cons.mpr ⟨.inl hnode, h⟩

theorem isChain_joinTexts (nodes : List Node) : (joinTexts nodes).IsChain Apart := by
  induction nodes with
  | nil => exact List.isChain_nil
  | cons node nodes ih => exact isChain_consJoined ih node

theorem joinTexts_of_isChain {nodes : List Node} (h : nodes.IsChain Apart) :
    joinTexts nodes = nodes := by
  induction nodes with
  | nil => rfl
  | cons node nodes ih =>
    rw [joinTexts, ih h.tail]
    cases nodes with
    | nil => exact consJoined_nil node
    | cons second nodes =>
      rcases (List.isChain_cons_cons.mp h).1 with hnode | hsecond
      · exact consJoined_of_ne_text hnode _
      · exact consJoined_onto_ne_text hsecond node nodes

end Node

/-! ## Pieces -/

theorem Tag.node_ne_text (tag : Tag) (inside : List Event) (nodes : List Node) (value : String) :
    tag.node inside nodes ≠ .text value := by
  intro h
  cases tag <;> cases h

namespace Piece

/-- No block is a text. -/
def BlocksNoText (pieces : List Piece) : Prop :=
  ∀ piece ∈ pieces, piece.isBlock = true → ∀ s, piece.node ≠ .text s

theorem BlocksNoText.eq_of_text {pieces : List Piece} (h : BlocksNoText pieces) {piece : Piece}
    (hpiece : piece ∈ pieces) {a : String} (htext : piece.node = .text a) :
    piece = ⟨false, .text a⟩ := by
  obtain ⟨isBlock, node⟩ := piece
  cases isBlock with
  | true => exact absurd htext (h _ hpiece rfl a)
  | false => exact congrArg (Piece.mk false) htext

theorem blocksNoText_ofEvents (events : List Event) : BlocksNoText (ofEvents events) := by
  fun_induction ofEvents events with
  | case1 => exact fun piece hpiece => absurd hpiece List.not_mem_nil
  | case2 tag events i inside _ ihbehind =>
    intro piece hpiece hblock s
    rcases List.mem_cons.mp hpiece with rfl | hpiece
    · exact tag.node_ne_text inside _ s
    · exact ihbehind piece hpiece hblock s
  | case3 event events hne node hleaf ih =>
    intro piece hpiece hblock s
    rcases List.mem_cons.mp hpiece with rfl | hpiece
    · -- Of the events that enclose nothing, rules alone are blocks.
      obtain rfl := of_decide_eq_true hblock
      cases hleaf
      intro htext
      cases htext
    · exact ih piece hpiece hblock s
  | case4 event events hne hleaf ih => exact ih

/-- Joining texts leaves the blocks as they are. -/
theorem filter_isBlock_joined (pieces : List Piece) :
    (joined pieces).filter isBlock = pieces.filter isBlock := by
  have hcons : ∀ (piece : Piece) (rest : List Piece),
      (consJoined piece rest).filter isBlock = (piece :: rest).filter isBlock := by
    intro piece rest
    unfold consJoined
    split <;> rfl
  induction pieces with
  | nil => rfl
  | cons piece pieces ih =>
    show (consJoined piece (joined pieces)).filter isBlock = _
    rw [hcons, List.filter_cons, List.filter_cons, ih]

theorem mem_of_mem_joined {pieces : List Piece} {piece : Piece} (hblock : piece.isBlock = true)
    (h : piece ∈ joined pieces) : piece ∈ pieces := by
  have hfilter : piece ∈ (joined pieces).filter isBlock := List.mem_filter.mpr ⟨h, hblock⟩
  rw [filter_isBlock_joined] at hfilter
  exact (List.mem_filter.mp hfilter).1

theorem map_node_consJoined {piece : Piece} {pieces : List Piece}
    (h : BlocksNoText (piece :: pieces)) :
    (consJoined piece pieces).map node = Node.consJoined piece.node (pieces.map node) := by
  unfold consJoined
  split
  · rfl
  next hpair =>
    rcases Node.text_or_ne piece.node with ⟨a, ha⟩ | hne
    · cases pieces with
      | nil => exact (Node.consJoined_nil piece.node).symm
      | cons next pieces =>
        -- Both would be inline texts, unless the second is no text.
        have hnext : ∀ b, next.node ≠ .text b := by
          intro b hb
          have hfirst := h.eq_of_text (List.mem_cons_self ..) ha
          have hsecond := h.eq_of_text (List.mem_cons_of_mem _ (List.mem_cons_self ..)) hb
          exact hpair a b pieces hfirst (congrArg (· :: pieces) hsecond)
        exact (Node.consJoined_onto_ne_text hnext piece.node _).symm
    · exact (Node.consJoined_of_ne_text hne _).symm

/-- If no block is a text, joining the texts of pieces joins all texts of their nodes. -/
theorem map_node_joined {pieces : List Piece} (h : BlocksNoText pieces) :
    (joined pieces).map node = Node.joinTexts (pieces.map node) := by
  induction pieces with
  | nil => rfl
  | cons piece pieces ih =>
    have hjoined : BlocksNoText (piece :: joined pieces) := by
      intro p hp hblock
      rcases List.mem_cons.mp hp with rfl | hp
      · exact h p (List.mem_cons_self ..) hblock
      · exact h p (List.mem_cons_of_mem _ (mem_of_mem_joined hblock hp)) hblock
    show (consJoined piece (joined pieces)).map node = _
    rw [map_node_consJoined hjoined, ih fun p hp => h p (List.mem_cons_of_mem _ hp)]
    rfl

/-- Whether two pieces, one behind the other, belong to one run. -/
def runOn (piece next : Piece) : Bool := !piece.isBlock && !next.isBlock

end Piece

/-- A part of what a list item holds. -/
inductive ItemPart where
  /-- Inline nodes up to the next block. -/
  | run (nodes : List Node)
  | block (node : Node)

namespace ItemPart

/-- The nodes of a part as they are read. -/
def nodes : ItemPart → List Node
  | .run nodes => nodes
  | .block node => [node]

/-- The child of the item that a part becomes. -/
def child : ItemPart → Node
  | .run nodes => .paragraph nodes
  | .block node => node

def block? : ItemPart → Option Node
  | .run _ => none
  | .block node => some node

def isRun : ItemPart → Bool
  | .run _ => true
  | .block _ => false

/-- The part that pieces make: one block, or a run of inline pieces. -/
def ofPieces : List Piece → ItemPart
  | [⟨true, node⟩] => .block node
  | pieces => .run (pieces.map Piece.node)

/-- The parts of what events describe: the nodes with their texts joined, cut in front of every
block and behind it. -/
def ofEvents (events : List Event) : List ItemPart :=
  ((Piece.joined (Piece.ofEvents events)).splitBy Piece.runOn).map ofPieces

end ItemPart

/-! ## Groups of pieces -/

namespace Piece

/-- Pieces between which nothing is cut: one block, or a run with its texts joined. -/
inductive IsGroup : List Piece → Prop where
  | block (node : Node) : IsGroup [⟨true, node⟩]
  | run {pieces : List Piece} (hne : pieces ≠ [])
    (hinline : ∀ piece ∈ pieces, piece.isBlock = false)
    (hjoined : Node.joinTexts (pieces.map Piece.node) = pieces.map Piece.node) : IsGroup pieces

/-- A block is in no run with another piece. -/
theorem inline_or_block {pieces : List Piece} (hne : pieces ≠ [])
    (h : pieces.IsChain fun piece next => runOn piece next = true) :
    (∀ piece ∈ pieces, piece.isBlock = false) ∨ ∃ node, pieces = [⟨true, node⟩] := by
  induction pieces with
  | nil => exact absurd rfl hne
  | cons piece pieces ih =>
    cases pieces with
    | nil =>
      obtain ⟨isBlock, node⟩ := piece
      cases isBlock with
      | true => exact .inr ⟨node, rfl⟩
      | false =>
        refine .inl fun p hp => ?_
        rw [List.mem_singleton.mp hp]
    | cons next pieces =>
      obtain ⟨hrun, htail⟩ := List.isChain_cons_cons.mp h
      unfold runOn at hrun
      rw [Bool.and_eq_true, Bool.not_eq_true', Bool.not_eq_true'] at hrun
      rcases ih (List.cons_ne_nil _ _) htail with hinline | ⟨node, hblock⟩
      · refine .inl fun p hp => ?_
        rcases List.mem_cons.mp hp with rfl | hp
        · exact hrun.1
        · exact hinline p hp
      · rw [(List.cons.inj hblock).1] at hrun
        exact absurd hrun.2 Bool.true_eq_false.mp

/-- Cut at the blocks, pieces with their texts joined are groups. -/
theorem isGroup_of_mem_splitBy {pieces group : List Piece} (h : BlocksNoText pieces)
    (hgroup : group ∈ (joined pieces).splitBy runOn) : IsGroup group := by
  have hne := List.ne_nil_of_mem_splitBy hgroup
  rcases inline_or_block hne (List.isChain_of_mem_splitBy hgroup) with hinline | ⟨node, rfl⟩
  · have hrow : group <:+: joined pieces := by
      have hflatten := List.infix_of_mem_flatten hgroup
      rwa [List.flatten_splitBy] at hflatten
    have hapart : (group.map node).IsChain Node.Apart := by
      have hchain := Node.isChain_joinTexts (pieces.map node)
      rw [← map_node_joined h] at hchain
      exact hchain.infix (hrow.map node)
    exact .run hne hinline (Node.joinTexts_of_isChain hapart)
  · exact .block node

end Piece

namespace ItemPart

open Piece (IsGroup)

theorem ofPieces_of_inline {pieces : List Piece}
    (h : ∀ piece ∈ pieces, piece.isBlock = false) : ofPieces pieces = .run (pieces.map Piece.node) := by
  unfold ofPieces
  split
  next node => exact absurd (h _ (List.mem_singleton_self _)) Bool.true_eq_false.mp
  · rfl

/-- Parts that are not parted by a block would be one run. -/
theorem not_both_runs {group next : List Piece} (hgroup : IsGroup group) (hnext : IsGroup next)
    (hcut : ∃ ha hb, Piece.runOn (group.getLast ha) (next.head hb) = false) :
    ((ofPieces group).isRun && (ofPieces next).isRun) = false := by
  cases hgroup with
  | block node => rfl
  | run _ hinline _ =>
    cases hnext with
    | block node => exact Bool.and_false _
    | run _ hinline' _ =>
      obtain ⟨ha, hb, hrun⟩ := hcut
      unfold Piece.runOn at hrun
      rw [hinline _ (List.getLast_mem ha), hinline' _ (List.head_mem hb)] at hrun
      cases hrun

theorem nodes_ofPieces {group : List Piece} (h : IsGroup group) :
    (ofPieces group).nodes = group.map Piece.node := by
  cases h with
  | block node => rfl
  | run _ hinline _ => rw [ofPieces_of_inline hinline, nodes]

theorem block?_ofPieces {group : List Piece} (h : IsGroup group) :
    (ofPieces group).block?.toList = (group.filter Piece.isBlock).map Piece.node := by
  cases h with
  | block node => rfl
  | run _ hinline _ =>
    have hnone : group.filter Piece.isBlock = [] := by
      rw [List.filter_eq_nil_iff]
      intro piece hpiece
      rw [hinline piece hpiece]
      exact Bool.false_ne_true
    rw [ofPieces_of_inline hinline, hnone]
    rfl

theorem flatMap_nodes {groups : List (List Piece)} (h : ∀ group ∈ groups, IsGroup group) :
    (groups.map ofPieces).flatMap nodes = groups.flatten.map Piece.node := by
  rw [List.flatMap_map, List.map_flatten, ← List.flatMap_def]
  exact List.flatMap_congr fun group hgroup => nodes_ofPieces (h group hgroup)

theorem filterMap_block? {groups : List (List Piece)} (h : ∀ group ∈ groups, IsGroup group) :
    (groups.map ofPieces).filterMap block?
      = (groups.flatten.filter Piece.isBlock).map Piece.node := by
  rw [List.filterMap_eq_flatMap_toList, List.flatMap_map, List.filter_flatten, List.map_flatten,
    List.map_map, ← List.flatMap_def]
  exact List.flatMap_congr fun group hgroup => block?_ofPieces (h group hgroup)

/-- **Wrapping runs while reading is wrapping the parts afterwards.** -/
theorem wrapRuns_flatten {groups : List (List Piece)} (h : ∀ group ∈ groups, IsGroup group)
    (hparted : (groups.map ofPieces).IsChain fun part next => (part.isRun && next.isRun) = false) :
    Node.wrapRuns [] groups.flatten = groups.map fun group => (ofPieces group).child := by
  induction groups with
  | nil => rfl
  | cons group groups ih =>
    have hrest := ih (fun g hg => h g (List.mem_cons_of_mem _ hg)) hparted.tail
    rw [List.flatten_cons, List.map_cons, ← hrest]
    cases h group (List.mem_cons_self ..) with
    | block node => rfl
    | run hne hinline hjoined =>
      -- Behind a run there is a block or nothing.
      have hblock : ∀ piece ∈ groups.flatten.head?, piece.isBlock = true := by
        cases groups with
        | nil => exact nofun
        | cons next groups =>
          have hcut := (List.isChain_cons_cons.mp hparted).1
          cases h next (List.mem_cons_of_mem _ (List.mem_cons_self ..)) with
          | block node =>
            intro piece hpiece
            cases hpiece
            rfl
          | run _ hinline' _ =>
            rw [ofPieces_of_inline hinline, ofPieces_of_inline hinline'] at hcut
            cases hcut
      have hrun : (group.map Piece.node).isEmpty = false := by
        rw [List.isEmpty_eq_false_iff, ne_eq, List.map_eq_nil_iff]
        exact hne
      rw [Node.wrapRuns_inline hinline, Node.wrapRuns_of_block hblock, List.append_nil,
        List.reverse_reverse, Node.wrapRun, hrun, hjoined, ofPieces_of_inline hinline]
      rfl

/-- How a list item follows from its parts. -/
structure IsItem (events : List Event) (parts : List ItemPart) : Prop where
  /-- With nothing wrapped the parts are what the events describe. -/
  nodes : parts.flatMap ItemPart.nodes = Node.ofEvents events
  /-- With the runs wrapped they are the children of the item. -/
  children : parts.map child = Node.blocksOfEvents events
  /-- The blocks are the nodes of block events, and all of them. -/
  blocks : parts.filterMap block?
    = ((Piece.ofEvents events).filter Piece.isBlock).map Piece.node
  /-- No paragraph around a run is empty. -/
  runs : ∀ run, .run run ∈ parts → run ≠ []
  /-- No two of them stand side by side. -/
  parted : parts.IsChain fun part next => (part.isRun && next.isRun) = false

theorem isItem_ofEvents (events : List Event) : IsItem events (ofEvents events) := by
  have htexts := Piece.blocksNoText_ofEvents events
  let groups := (Piece.joined (Piece.ofEvents events)).splitBy Piece.runOn
  have hgroups : ∀ group ∈ groups, IsGroup group := fun group hgroup =>
    Piece.isGroup_of_mem_splitBy htexts hgroup
  have hflatten : groups.flatten = Piece.joined (Piece.ofEvents events) :=
    List.flatten_splitBy _ _
  have hparted : (groups.map ofPieces).IsChain fun part next =>
      (part.isRun && next.isRun) = false := by
    rw [List.isChain_map]
    exact (List.isChain_getLast_head_splitBy _ _).imp_of_mem_imp fun group next hgroup hnext =>
      not_both_runs (hgroups group hgroup) (hgroups next hnext)
  show IsItem events (groups.map ofPieces)
  constructor
  · rw [flatMap_nodes hgroups, hflatten]
    exact Piece.map_node_joined htexts
  · rw [List.map_map]
    exact (wrapRuns_flatten hgroups hparted).symm.trans (hflatten ▸ Piece.wrapRuns_joined [] _)
  · rw [filterMap_block? hgroups, hflatten, Piece.filter_isBlock_joined]
  · intro run hrun
    obtain ⟨group, hgroup, heq⟩ := List.mem_map.mp hrun
    cases hgroups group hgroup with
    | block node => cases heq
    | run hne hinline _ =>
      rw [ofPieces_of_inline hinline] at heq
      cases heq
      exact mt List.map_eq_nil_iff.mp hne
  · exact hparted

end ItemPart

/-! ## Whole trees -/

namespace Node

/-- What holds of a list item that is read from a list of events: it is made of events that stand in
a row there. -/
def ItemOf (whole : List Event) : Node → Prop
  | .listItem checked cs =>
    ∃ inside, inside <:+: whole ∧ checked = Event.checked? inside ∧ cs = blocksOfEvents inside
  | _ => True

/-- A child of a list item: a paragraph, or what a block event in the item became, with the literals
below it linked or not. -/
def IsItemChild (inside : List Event) (child : Node) : Prop :=
  (∃ cs, child = .paragraph cs)
    ∨ ∃ piece ∈ Piece.ofEvents inside, piece.isBlock = true
      ∧ (child = piece.node ∨ child = piece.node.linkLiterals)

theorem itemOf_node {whole inside : List Event} (tag : Tag) (h : inside <:+: whole) :
    ItemOf whole (tag.node inside (tag.content (Piece.ofEvents inside))) := by
  cases tag with
  | item => exact ⟨inside, h, rfl, rfl⟩
  | _ => trivial

theorem itemOf_leaf? {whole : List Event} {event : Event} {node : Node}
    (h : event.leaf? = some node) : ItemOf whole node := by
  cases event with
  | start | stop | taskMarker => cases h
  | _ =>
    cases h
    trivial

theorem everywhere_itemOf (events : List Event) :
    (Node.root (ofEvents events)).Everywhere (ItemOf events) := by
  have hpieces := Piece.everywhere_ofEvents (P := ItemOf events) (fun _ => trivial)
    (fun _ => trivial) (fun _ _ => itemOf_leaf?) (fun tag _ => itemOf_node tag) events
    List.infix_rfl
  exact everywhere_iff.mpr ⟨trivial,
    Tag.everywhere_content (fun _ => trivial) (fun _ => trivial) .paragraph hpieces⟩

/-- The blocks of an item are paragraphs and what block events became. -/
theorem paragraph_or_block {inside : List Event} {child : Node}
    (h : child ∈ blocksOfEvents inside) :
    (∃ cs, child = .paragraph cs)
      ∨ ∃ piece ∈ Piece.ofEvents inside, piece.isBlock = true ∧ child = piece.node := by
  have hitem := ItemPart.isItem_ofEvents inside
  rw [← hitem.children] at h
  obtain ⟨part, hpart, rfl⟩ := List.mem_map.mp h
  cases part with
  | run cs => exact .inl ⟨cs, rfl⟩
  | block node =>
    have hblock : node ∈ ((Piece.ofEvents inside).filter Piece.isBlock).map Piece.node := by
      rw [← hitem.blocks]
      exact List.mem_filterMap.mpr ⟨_, hpart, rfl⟩
    obtain ⟨piece, hpiece, rfl⟩ := List.mem_map.mp hblock
    obtain ⟨hmem, hisBlock⟩ := List.mem_filter.mp hpiece
    exact .inr ⟨piece, hmem, hisBlock, rfl⟩

theorem ne_text_of_mem_blocksOfEvents {inside : List Event} {child : Node}
    (h : child ∈ blocksOfEvents inside) (value : String) : child ≠ .text value := by
  rcases paragraph_or_block h with ⟨cs, rfl⟩ | ⟨piece, hpiece, hblock, rfl⟩
  · exact nofun
  · exact Piece.blocksNoText_ofEvents inside piece hpiece hblock value

theorem linkAll_blocksOfEvents (inside : List Event) :
    linkAll (blocksOfEvents inside) = (blocksOfEvents inside).map linkLiterals :=
  linkAll_eq_map fun _ => ne_text_of_mem_blocksOfEvents

/-- A list item of a tree whose literals may have been linked was a list item before. -/
theorem listItem_of_mem_linkLiterals {tree : Node} {checked : Option Bool} {cs : List Node}
    (h : .listItem checked cs ∈ tree.linkLiterals.preorder) :
    ∃ cs', .listItem checked cs' ∈ tree.preorder ∧ (cs = cs' ∨ cs = linkAll cs') := by
  rcases mem_preorder_linkLiterals h with hcut | ⟨old, hold, hitem | hitem⟩
  · exact nomatch hcut
  · subst hitem
    exact ⟨cs, hold, .inl rfl⟩
  · rcases text_or_kept_or_around old with ⟨value, rfl⟩ | hkept | ⟨shell, below, hshell, rfl⟩
    · cases hitem
    · rw [linkLiterals_of_isKept hkept] at hitem
      subst hitem
      exact ⟨cs, hold, .inl rfl⟩
    · rw [linkLiterals_around hshell] at hitem
      cases shell <;> cases hitem
      exact ⟨below, hold, .inr rfl⟩

/-- The children of an item, linked or not, are paragraphs and what block events became. -/
theorem isItemChild_of_mem {inside : List Event} {child : Node}
    (h : child ∈ blocksOfEvents inside ∨ child ∈ (blocksOfEvents inside).map linkLiterals) :
    child.IsItemChild inside := by
  rcases h with h | h
  · rcases paragraph_or_block h with hparagraph | ⟨piece, hpiece, hblock, rfl⟩
    · exact .inl hparagraph
    · exact .inr ⟨piece, hpiece, hblock, .inl rfl⟩
  · obtain ⟨before, hbefore, rfl⟩ := List.mem_map.mp h
    rcases paragraph_or_block hbefore with ⟨cs, rfl⟩ | ⟨piece, hpiece, hblock, rfl⟩
    · exact .inl ⟨linkAll cs, rfl⟩
    · exact .inr ⟨piece, hpiece, hblock, .inr rfl⟩

end Node

namespace Markdown

open Node (blocksOfEvents linkLiterals)

/-- **List items hold blocks only, and wrapping loses nothing.** Whatever the events are, the
children of an item follow from what the events describe by wrapping each run between two blocks in
a paragraph. And every list item of a tree is made in this way of events that stand in a row in the
document, so that each of its children is a paragraph or comes from a block event; linking changes
only what is below them. -/
theorem listItem_treeOf :
    (∀ events : List Event, ItemPart.IsItem events (ItemPart.ofEvents events))
      ∧ ∀ (options : Options) (events : List Event) (checked : Option Bool) (cs : List Node),
        .listItem checked cs ∈ (treeOf options events).preorder →
          ∃ inside, inside <:+: events ∧ checked = Event.checked? inside
            ∧ (cs = blocksOfEvents inside ∨ cs = (blocksOfEvents inside).map linkLiterals)
            ∧ ∀ child ∈ cs, child.IsItemChild inside := by
  refine ⟨ItemPart.isItem_ofEvents, fun options events checked cs h => ?_⟩
  have hitems := Node.everywhere_itemOf events
  unfold treeOf at h
  dsimp only at h
  split at h
  · obtain ⟨cs', hmem, hcs⟩ := Node.listItem_of_mem_linkLiterals h
    obtain ⟨inside, hinside, hchecked, rfl⟩ := hitems _ hmem
    rw [Node.linkAll_blocksOfEvents] at hcs
    refine ⟨inside, hinside, hchecked, hcs, fun child hchild => Node.isItemChild_of_mem ?_⟩
    rcases hcs with rfl | rfl
    · exact .inl hchild
    · exact .inr hchild
  · obtain ⟨inside, hinside, hchecked, rfl⟩ := hitems _ h
    exact ⟨inside, hinside, hchecked, .inl rfl, fun child hchild =>
      Node.isItemChild_of_mem (.inl hchild)⟩

/-- An item that starts with a box, with a quote between two runs. -/
theorem listItem_treeOf_quote :
    let inside := [Event.taskMarker true, .text "a", .start .blockQuote, .text "b",
      .stop .blockQuote, .code "c"]
    let events := .start (.list none) :: .start .item :: inside ++ [.stop .item, .stop .list]
    let options : Options := { autolinks := false }
    let cs := [Node.paragraph [.text "a"], .blockquote [.text "b"], .paragraph [.inlineCode "c"]]
    ItemPart.IsItem inside (ItemPart.ofEvents inside)
      ∧ .listItem (some true) cs ∈ (treeOf options events).preorder
      ∧ ∃ inside, inside <:+: events ∧ some true = Event.checked? inside
        ∧ (cs = blocksOfEvents inside ∨ cs = (blocksOfEvents inside).map linkLiterals)
        ∧ ∀ child ∈ cs, child.IsItemChild inside := by
  intro inside events options cs
  have hlist : Node.ofEvents events = [.list false none [.listItem (some true) cs]] := by
    have hquote : Tag.blockQuote.isBlock = true := rfl
    simp [events, inside, cs, Node.ofEvents, Piece.ofEvents, Event.leaf?, Event.checked?,
      Event.endIndex, Event.endIndex?, Event.closes, Event.opens, Tag.kind, Tag.node, Tag.content,
      Node.joinTexts, Node.consJoined, Node.wrapRuns, Node.wrapRun, hquote]
  have hmem : .listItem (some true) cs ∈ (treeOf options events).preorder := by
    have hitem : .listItem (some true) cs
        ∈ (Node.list false none [.listItem (some true) cs]).preorder :=
      Node.mem_preorder.mpr (.inr ⟨_, List.mem_singleton_self _, Node.self_mem_preorder _⟩)
    show _ ∈ (Node.root (Node.ofEvents events)).preorder
    rw [hlist]
    exact Node.mem_preorder.mpr (.inr ⟨_, List.mem_singleton_self _, hitem⟩)
  exact ⟨listItem_treeOf.1 inside, hmem, listItem_treeOf.2 options events (some true) cs hmem⟩

end Markdown

end Bracketdown
