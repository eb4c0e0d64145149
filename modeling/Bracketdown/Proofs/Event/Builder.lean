import Bracketdown.Event.Content
import Bracketdown.Proofs.Event.Nesting
import Bracketdown.Proofs.Node.Joining

/-!
# Building a tree in one pass

The reader works on slices: at each start it scans ahead for the end, reads what is between, and
goes on behind it. `Builder` reads the same events once, from the left, without looking ahead. It
keeps the open tags on a stack; a finished node goes to the tag on top, where a text is joined onto
the text in front of it and the inline content of an item is gathered until a block comes; an end
makes a node of the top tag, and refuses the list if it is not the end of that tag.

`build_eq` says that the two agree: the builder takes exactly the well nested lists, and gives for
each the nodes the reader gives. A whole well nested list changes a builder only by the pieces the
reader finds in it (`foldlM_step`), and that is proved by induction on the grammar of well nested
lists, with the scan settled by `Piece.ofEvents_pair`.
-/

namespace Bracketdown

/-- An open tag: the first two events inside it, and what is inside it so far. -/
structure Frame where
  tag : Tag
  opening : List Event := []
  content : Content := {}

namespace Frame

/-- Remembers an event inside the tag if it is one of the first two. -/
def note (frame : Frame) (event : Event) : Frame :=
  { frame with opening := (frame.opening ++ [event]).take 2 }

/-- Appends a finished node. -/
def append (frame : Frame) (piece : Piece) : Frame :=
  { frame with content := frame.content.append (frame.tag = .item) piece }

/-- The node of a tag that ends. -/
def close (frame : Frame) : Piece :=
  ⟨frame.tag.isBlock, frame.tag.node frame.opening frame.content.finish⟩

end Frame

/-- What is in the document so far, and the open tags, innermost first. -/
structure Builder where
  document : Content := {}
  frames : List Frame := []

namespace Builder

/-- Remembers an event that every open tag has inside it. -/
def note (builder : Builder) (event : Event) : Builder :=
  { builder with frames := builder.frames.map (·.note event) }

/-- Appends a finished node to the innermost open tag, or to the document. -/
def append (builder : Builder) (piece : Piece) : Builder :=
  match builder.frames with
  | [] => { builder with document := builder.document.append false piece }
  | top :: below => { builder with frames := top.append piece :: below }

/-- Opens a tag. -/
def enter (builder : Builder) (frame : Frame) : Builder :=
  { builder with frames := frame :: builder.frames }

/-- The builder behind one more event; none if the event ends a tag that is not the innermost. -/
def step (builder : Builder) (event : Event) : Option Builder :=
  match event with
  | .start tag => some ((builder.note event).enter { tag })
  | .stop kind =>
    match builder.frames with
    | [] => none
    | top :: below =>
      if kind = top.tag.kind then
        some (({ builder with frames := below }.note event).append top.close)
      else none
  | _ => some (event.piece?.toList.foldl append (builder.note event))

/-- The nodes of a document, if each end closes the innermost open tag and no tag stays open. -/
def build (events : List Event) : Option (List Node) :=
  (events.foldlM step {}).bind fun builder =>
    if builder.frames.isEmpty then some builder.document.finish else none

end Builder

/-! ## Content -/

namespace Content

/-- Appended to content that wraps nothing, nodes are joined and stand behind those before. -/
theorem foldl_append_false (pieces : List Piece) (content : Content) :
    pieces.foldl (append false) content
      = { content with nodes := (pieces.map Piece.node).foldl Node.pushJoined content.nodes } := by
  induction pieces generalizing content with
  | nil => rfl
  | cons piece pieces ih =>
    rw [List.foldl_cons, ih]
    rfl

/-- A run ends as `wrapRun` says. -/
theorem finish_mk (nodes run : List Node) :
    finish ⟨nodes, (Node.joinTexts run.reverse).reverse⟩
      = nodes.reverse ++ Node.wrapRun run.reverse := by
  unfold finish flush Node.wrapRun
  cases run with
  | nil => exact (List.append_nil _).symm
  | cons node run =>
    have hne : (node :: run).reverse ≠ [] := by
      rw [ne_eq, List.reverse_eq_nil_iff]
      exact List.cons_ne_nil _ _
    have hjoined : (Node.joinTexts (node :: run).reverse).reverse ≠ [] := by
      rw [ne_eq, List.reverse_eq_nil_iff, Node.joinTexts_eq_nil]
      exact hne
    rw [if_neg (mt List.isEmpty_iff.mp hne), if_neg (mt List.isEmpty_iff.mp hjoined),
      List.reverse_cons, List.reverse_reverse]

/-- What is appended to the content of an item. The run so far is that of the nodes in `run`, which
`wrapRuns` joins only when the run ends. -/
theorem finish_foldl_append_true (pieces : List Piece) (nodes run : List Node) :
    (pieces.foldl (append true) ⟨nodes, (Node.joinTexts run.reverse).reverse⟩).finish
      = nodes.reverse ++ Node.wrapRuns run pieces := by
  induction pieces generalizing nodes run with
  | nil => exact finish_mk nodes run
  | cons piece pieces ih =>
    obtain ⟨isBlock, node⟩ := piece
    rw [List.foldl_cons]
    cases isBlock with
    | true =>
      rw [append, if_pos rfl, if_pos rfl]
      -- The block ends the run, so what follows starts with an empty one.
      have hrest := ih (node :: (flush ⟨nodes, (Node.joinTexts run.reverse).reverse⟩).nodes) []
      rw [List.reverse_cons, ← finish, finish_mk, List.append_assoc, List.append_assoc] at hrest
      exact hrest
    | false =>
      rw [append, if_pos rfl, if_neg Bool.false_ne_true]
      have hpush : Node.pushJoined (Node.joinTexts run.reverse).reverse node
          = (Node.joinTexts (node :: run).reverse).reverse := by
        rw [List.reverse_cons, Node.joinTexts_append_singleton, List.reverse_reverse]
      dsimp only
      rw [hpush]
      exact ih nodes (node :: run)

end Content

theorem Tag.content_of_ne_item {tag : Tag} (h : tag ≠ .item) (pieces : List Piece) :
    tag.content pieces = Node.joinTexts (pieces.map Piece.node) := by
  cases tag with
  | item => exact absurd rfl h
  | _ => rfl

/-- Appended one after the other to nothing, pieces become the content that the reader makes of
them. -/
theorem Content.finish_foldl_append (tag : Tag) (pieces : List Piece) :
    (pieces.foldl (append (tag = .item)) {}).finish = tag.content pieces := by
  by_cases hitem : tag = .item
  · subst hitem
    exact finish_foldl_append_true pieces [] []
  · rw [decide_eq_false hitem, foldl_append_false, Tag.content_of_ne_item hitem]
    show (List.foldl Node.pushJoined (Node.joinTexts []).reverse _).reverse = _
    rw [Node.foldl_pushJoined, List.reverse_reverse, List.nil_append]

/-! ## Open tags -/

namespace Frame

theorem foldl_append (pieces : List Piece) (frame : Frame) :
    pieces.foldl append frame
      = { frame with content := pieces.foldl (.append (frame.tag = .item)) frame.content } := by
  induction pieces generalizing frame with
  | nil => rfl
  | cons piece pieces ih =>
    rw [List.foldl_cons, ih]
    rfl

theorem take_take_append (n : Nat) (before events : List Event) :
    (before.take n ++ events).take n = (before ++ events).take n := by
  rw [List.take_append, List.take_append, List.take_take, Nat.min_self, List.length_take]
  congr 2
  omega

/-- Of all the events inside a tag the first two are remembered. -/
theorem foldl_note (events : List Event) (frame : Frame) (h : frame.opening.length ≤ 2) :
    events.foldl note frame = { frame with opening := (frame.opening ++ events).take 2 } := by
  induction events generalizing frame with
  | nil => rw [List.foldl_nil, List.append_nil, List.take_of_length_le h]
  | cons event events ih =>
    rw [List.foldl_cons, ih _ (by simp only [note, List.length_take]; omega)]
    simp only [note]
    rw [take_take_append, ← List.append_cons]

end Frame

/-- The box of an item depends on the first two events in it. -/
theorem Event.checked?_take (events : List Event) : checked? (events.take 2) = checked? events := by
  match events with
  | [] => rfl
  | [_] => rfl
  | first :: second :: events => cases first <;> cases second <;> rfl

theorem Tag.node_take (tag : Tag) (inside : List Event) (nodes : List Node) :
    tag.node (inside.take 2) nodes = tag.node inside nodes := by
  cases tag with
  | item => exact congrArg (Node.listItem · nodes) (Event.checked?_take inside)
  | _ => rfl

/-- An open tag that has had all its events and pieces closes as what the reader makes of it. -/
theorem Frame.close_foldl (tag : Tag) (inside : List Event) :
    ((Piece.ofEvents inside).foldl append (inside.foldl note { tag })).close
      = ⟨tag.isBlock, tag.node inside (tag.content (Piece.ofEvents inside))⟩ := by
  rw [foldl_note inside { tag } (Nat.zero_le 2), foldl_append, close]
  dsimp only
  rw [Content.finish_foldl_append, List.nil_append, Tag.node_take]

/-! ## Whole lists -/

namespace Builder

theorem note_append (builder : Builder) (piece : Piece) (event : Event) :
    (builder.append piece).note event = (builder.note event).append piece := by
  unfold append note
  cases builder.frames <;> rfl

theorem note_foldl_append (pieces : List Piece) (builder : Builder) (event : Event) :
    (pieces.foldl append builder).note event = pieces.foldl append (builder.note event) := by
  induction pieces generalizing builder with
  | nil => rfl
  | cons piece pieces ih => rw [List.foldl_cons, ih, note_append, List.foldl_cons]

theorem foldl_note_enter (events : List Event) (builder : Builder) (frame : Frame) :
    events.foldl note (builder.enter frame)
      = (events.foldl note builder).enter (events.foldl Frame.note frame) := by
  induction events generalizing builder frame with
  | nil => rfl
  | cons event events ih => exact ih (builder.note event) (frame.note event)

theorem foldl_append_enter (pieces : List Piece) (builder : Builder) (frame : Frame) :
    pieces.foldl append (builder.enter frame)
      = builder.enter (pieces.foldl Frame.append frame) := by
  induction pieces generalizing frame with
  | nil => rfl
  | cons piece pieces ih => exact ih (frame.append piece)

theorem foldl_note_append (events : List Event) (pieces : List Piece) (builder : Builder) :
    events.foldl note (pieces.foldl append builder)
      = pieces.foldl append (events.foldl note builder) := by
  induction events generalizing builder with
  | nil => rfl
  | cons event events ih => rw [List.foldl_cons, note_foldl_append, ih, List.foldl_cons]

theorem step_plain {event : Event} (h : event.isPlain) (builder : Builder) :
    builder.step event = some (event.piece?.toList.foldl append (builder.note event)) := by
  cases event with
  | start => cases h
  | stop => cases h
  | _ => rfl

theorem step_stop_enter (builder : Builder) (frame : Frame) :
    (builder.enter frame).step (.stop frame.tag.kind)
      = some ((builder.note (.stop frame.tag.kind)).append frame.close) := by
  show (if frame.tag.kind = frame.tag.kind then _ else none) = _
  rw [if_pos rfl]
  rfl

/-- **A well nested list adds to a builder what the reader reads in it**, and every open tag has had
the events of the list inside it. -/
theorem foldlM_step {events : List Event} (h : Event.Nested events) (builder : Builder) :
    events.foldlM step builder
      = some ((Piece.ofEvents events).foldl append (events.foldl note builder)) := by
  induction h generalizing builder with
  | nil => rw [Piece.ofEvents]; rfl
  | @plain event events hplain _ ih =>
    rw [List.foldlM_cons, step_plain hplain]
    show List.foldlM step _ events = _
    rw [ih, foldl_note_append, Piece.ofEvents_plain hplain, List.foldl_append, List.foldl_cons]
  | @pair inside behind tag hinside _ ihinside ihbehind =>
    rw [List.foldlM_cons]
    show List.foldlM step ((builder.note (.start tag)).enter { tag }) _ = _
    rw [List.foldlM_append, ihinside, foldl_note_enter, foldl_append_enter]
    -- The top of the stack is now the tag with everything inside it, so its end closes it.
    show List.foldlM step _ (.stop tag.kind :: behind) = _
    have htag : ((Piece.ofEvents inside).foldl Frame.append
        (inside.foldl Frame.note { tag })).tag = tag := by
      rw [Frame.foldl_note inside { tag } (Nat.zero_le 2), Frame.foldl_append]
    have hstop := step_stop_enter (inside.foldl note (builder.note (.start tag)))
      ((Piece.ofEvents inside).foldl Frame.append (inside.foldl Frame.note { tag }))
    rw [htag, Frame.close_foldl] at hstop
    rw [List.foldlM_cons, hstop]
    show List.foldlM step _ behind = _
    rw [ihbehind, Piece.ofEvents_pair hinside, List.foldl_cons, List.foldl_cons, List.foldl_append,
      List.foldl_cons]
    exact congrArg (fun before => some ((Piece.ofEvents behind).foldl append before))
      (foldl_note_append behind [_] _)

/-- The kinds of the open tags, innermost first. -/
def kinds (builder : Builder) : List TagKind := builder.frames.map (·.tag.kind)

theorem kinds_note (builder : Builder) (event : Event) :
    (builder.note event).kinds = builder.kinds := by
  rw [kinds, note, List.map_map]
  rfl

theorem kinds_append (builder : Builder) (piece : Piece) :
    (builder.append piece).kinds = builder.kinds := by
  unfold append kinds
  split
  next hframes => rw [hframes]
  next top below hframes => rw [hframes]; rfl

/-- A builder goes on as the stack of the kinds of its open tags does. -/
theorem map_kinds_step (builder : Builder) (event : Event) :
    (builder.step event).map kinds = Event.nest builder.kinds event := by
  rcases event.start_or_stop_or_plain with ⟨tag, rfl⟩ | ⟨kind, rfl⟩ | hplain
  · show some (tag.kind :: (builder.note (.start tag)).kinds) = _
    rw [kinds_note]
    rfl
  · unfold step Event.nest kinds
    cases builder.frames with
    | nil => rfl
    | cons top below =>
      rw [List.map_cons]
      dsimp only
      by_cases hkind : kind = top.tag.kind
      · rw [if_pos hkind, if_pos hkind, Option.map_some, ← kinds, kinds_append, kinds_note]
        rfl
      · rw [if_neg hkind, if_neg hkind]
        rfl
  · rw [step_plain hplain, Event.nest_plain hplain, Option.map_some]
    cases event.piece? with
    | none => exact congrArg some (kinds_note builder event)
    | some piece => exact congrArg some ((kinds_append _ piece).trans (kinds_note builder event))

theorem map_kinds_foldlM_step (events : List Event) (builder : Builder) :
    (events.foldlM step builder).map kinds = events.foldlM Event.nest builder.kinds := by
  induction events generalizing builder with
  | nil => rfl
  | cons event events ih =>
    rw [List.foldlM_cons, List.foldlM_cons, ← map_kinds_step]
    cases builder.step event with
    | none => rfl
    | some next => exact ih next

theorem foldl_append_document (pieces : List Piece) (content : Content) :
    pieces.foldl append { document := content }
      = { document := pieces.foldl (.append false) content } := by
  induction pieces generalizing content with
  | nil => rfl
  | cons piece pieces ih => exact ih (content.append false piece)

theorem foldl_note_document (events : List Event) (content : Content) :
    events.foldl note { document := content } = { document := content } := by
  induction events with
  | nil => rfl
  | cons event events ih => exact ih

/-- **Scanning ahead and keeping a stack give the same nodes.** The builder takes a list exactly
when it is well nested, and then builds what the reader builds. -/
theorem build_eq (events : List Event) :
    build events = if Event.wellNested events then some (Node.ofEvents events) else none := by
  by_cases h : Event.wellNested events = true
  · rw [if_pos h, build, foldlM_step (Event.wellNested_iff.mp h), foldl_note_document,
      foldl_append_document]
    exact congrArg some (Content.finish_foldl_append .paragraph (Piece.ofEvents events))
  · rw [if_neg h, build]
    cases hrun : events.foldlM step {} with
    | none => rfl
    | some builder =>
      -- The builder got to the end of a list that is not well nested: then a tag is still open.
      have hkinds := map_kinds_foldlM_step events {}
      rw [hrun] at hkinds
      have hframes : builder.frames ≠ [] := by
        intro hnil
        rw [Option.map_some, kinds, hnil] at hkinds
        exact h (decide_eq_true hkinds.symm)
      show (if builder.frames.isEmpty then _ else none) = none
      rw [if_neg (mt List.isEmpty_iff.mp hframes)]

end Builder

end Bracketdown
