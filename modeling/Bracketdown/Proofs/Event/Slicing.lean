import Bracketdown.Event.Slicing
import Bracketdown.Proofs.Event.Builder

/-!
# Nothing goes wrong in reading by index

`read_total` says that no `Slip` comes of reading by index, whatever the events are. Its core is
what is true of a single start (`tagBounds_start`): what is inside the tag is a slice of the events
and shorter than they are, and what is gone through is at least the start and at most one event more
than there are. Hence every round moves the cursor on (`exists_step`).
-/

namespace Bracketdown.Slicing

theorem ok_bind {α β : Type} (a : α) (f : α → Except Slip β) : (Except.ok a >>= f) = f a := rfl

/-! ## Bounds -/

theorem slice_eq {events : List Event} {start stop : Nat} (hstart : start ≤ stop)
    (hstop : stop ≤ events.length) :
    slice events start stop = .ok ((events.take stop).drop start) := if_pos ⟨hstart, hstop⟩

theorem sliceFrom_eq {events : List Event} {start : Nat} (h : start ≤ events.length) :
    sliceFrom events start = .ok (events.drop start) := by
  rw [sliceFrom, slice_eq h (Nat.le_refl _), List.take_length]

theorem eventAt_eq {events behind : List Event} {event : Event} {idx : Nat}
    (h : events.drop idx = event :: behind) : eventAt events idx = .ok event := by
  have hget : events[idx]? = some event := by
    rw [← Nat.add_zero idx, ← List.getElem?_drop, h]
    rfl
  rw [eventAt, hget]

/-- The end that is found for a tag is one of the events. -/
theorem endIndex?_lt {kind : TagKind} {depth i : Nat} {events : List Event}
    (h : Event.endIndex? kind depth events = some i) : i < events.length := by
  induction events generalizing depth i with
  | nil => cases h
  | cons event events ih =>
    have hnext : ∀ {depth}, (Event.endIndex? kind depth events).map (· + 1) = some i →
        i < (event :: events).length := by
      intro depth hmap
      obtain ⟨j, hj, rfl⟩ := Option.map_eq_some_iff.mp hmap
      exact Nat.succ_lt_succ (ih hj)
    cases hcloses : event.closes kind with
    | false =>
      rw [Event.endIndex?_of_not_closes hcloses] at h
      exact hnext h
    | true =>
      cases depth with
      | zero =>
        rw [Event.endIndex?, hcloses, if_pos rfl] at h
        cases h
        exact Nat.zero_lt_succ _
      | succ depth =>
        rw [Event.endIndex?, hcloses, if_pos rfl] at h
        exact hnext h

/-- The end of a tag is never beyond the events, be there one or not. -/
theorem endIndex_le (kind : TagKind) (events : List Event) :
    Event.endIndex kind events ≤ events.length := by
  unfold Event.endIndex
  cases h : Event.endIndex? kind 0 events with
  | none => exact Nat.sub_le _ _
  | some i => exact Nat.le_of_lt (endIndex?_lt h)

/-- What is read at a start, in front of some events: what is inside the tag is a slice of them and
shorter, and of them at least one is gone through, and at most one more than there are. -/
structure TagBounds (inner : Tag → List Event → Except Slip (List Node)) (tag : Tag)
    (events inside : List Event) (stop consumed : Nat) : Prop where
  inside_eq : slice events 1 (stop + 1) = .ok inside
  shorter : inside.length < events.length
  /-- Only in what is inside can anything go wrong. -/
  tagAt_eq : tagAt inner tag events
    = (inner tag inside).map fun nodes => ⟨some (tag.node inside nodes), consumed⟩
  one_le_consumed : 1 ≤ consumed
  consumed_le : consumed ≤ events.length + 1

/-- **A start keeps the bounds**, whatever is behind it and whatever reads what is inside. -/
theorem tagBounds_start (inner : Tag → List Event → Except Slip (List Node)) (tag : Tag)
    (behind : List Event) :
    TagBounds inner tag (.start tag :: behind)
      (behind.take (Event.endIndex tag.kind behind)) (Event.endIndex tag.kind behind)
      (Event.endIndex tag.kind behind + 2) := by
  have hstop := endIndex_le tag.kind behind
  have hbehind : sliceFrom (.start tag :: behind) 1 = .ok behind :=
    sliceFrom_eq (Nat.succ_le_succ (Nat.zero_le _))
  have hinside : slice (.start tag :: behind) 1 (Event.endIndex tag.kind behind + 1)
      = .ok (behind.take (Event.endIndex tag.kind behind)) :=
    slice_eq (Nat.le_add_left 1 _) (Nat.succ_le_succ hstop)
  refine ⟨hinside, ?_, ?_, Nat.le_add_left 1 _, Nat.succ_le_succ (Nat.succ_le_succ hstop)⟩
  · rw [List.length_take, List.length_cons]
    omega
  · unfold tagAt
    rw [hbehind, ok_bind]
    dsimp only
    rw [hinside, ok_bind]
    cases inner tag _ <;> rfl

/-! ## Rounds -/

/-- A reader of what is inside a tag gives the content that there is, for less than so many
events. -/
def Reads (inner : Tag → List Event → Except Slip (List Node)) (size : Nat) : Prop :=
  ∀ (tag : Tag) (inside : List Event), inside.length < size →
    inner tag inside = .ok (tag.content (Piece.ofEvents inside))

section Rounds

variable {inner : Tag → List Event → Except Slip (List Node)} {wraps : Bool}
  {events behind : List Event} {event : Event}

/-- What is in front of some events is the first of their pieces, if it is one, and the others are
those of the events behind it. -/
theorem frontOf_eq (hinner : Reads inner (event :: behind).length) :
    ∃ taken, frontOf inner (event :: behind) = .ok taken
      ∧ 1 ≤ taken.consumed ∧ taken.consumed ≤ (event :: behind).length + 1
      ∧ Piece.ofEvents (event :: behind)
        = (taken.node.map (Piece.mk (startsBlock event))).toList
          ++ Piece.ofEvents ((event :: behind).drop taken.consumed) := by
  have hfront : eventAt (event :: behind) 0 = .ok event := rfl
  unfold frontOf
  rw [hfront, ok_bind]
  rcases event.start_or_stop_or_plain with ⟨tag, rfl⟩ | ⟨kind, rfl⟩ | hplain
  · have hbounds := tagBounds_start inner tag behind
    refine ⟨_, hbounds.tagAt_eq.trans (by rw [hinner tag _ hbounds.shorter]; rfl),
      hbounds.one_le_consumed, hbounds.consumed_le, ?_⟩
    rw [Piece.ofEvents]
    rfl
  · refine ⟨⟨none, 1⟩, rfl, Nat.le_refl _, Nat.le_add_left 1 _, ?_⟩
    rw [Piece.ofEvents]
    · rfl
    · intro tag htag
      cases htag
  · refine ⟨⟨event.leaf?, 1⟩, ?_, Nat.le_refl _, Nat.le_add_left 1 _, ?_⟩
    · cases event with
      | start => cases hplain
      | _ => rfl
    · rw [Piece.ofEvents_plain hplain]
      cases event with
      | start | stop => cases hplain
      | _ => rfl

theorem Reads.mono {size size' : Nat} (h : Reads inner size) (hsize : size' ≤ size) :
    Reads inner size' := fun tag inside hinside => h tag inside (Nat.lt_of_lt_of_le hinside hsize)

/-- **A round moves the cursor on**, and not further than one beyond the events. What is read in it
and what is left for the next are together what was left before. -/
theorem exists_step (wraps : Bool) (hinner : Reads inner events.length) {cursor : Cursor}
    (h : cursor.idx < events.length) :
    ∃ next, step inner wraps events cursor = .ok next
      ∧ cursor.idx < next.idx ∧ next.idx ≤ events.length + 1
      ∧ (Piece.ofEvents (events.drop next.idx)).foldl (Content.append wraps) next.content
        = (Piece.ofEvents (events.drop cursor.idx)).foldl (Content.append wraps)
            cursor.content := by
  have hdrop := List.drop_eq_getElem_cons h
  have hlength := congrArg List.length hdrop
  rw [List.length_drop] at hlength
  obtain ⟨taken, htaken, hpos, hle, hpieces⟩ := frontOf_eq (hinner.mono
    (hlength ▸ Nat.sub_le events.length cursor.idx))
  unfold step
  rw [eventAt_eq hdrop, ok_bind, sliceFrom_eq (Nat.le_of_lt h), ok_bind, hdrop, htaken, ok_bind,
    Nat.max_eq_left hpos]
  refine ⟨_, rfl, Nat.lt_add_of_pos_right hpos, ?_, ?_⟩
  · dsimp only
    omega
  · dsimp only
    rw [hpieces, List.foldl_append, ← hdrop, List.drop_drop]
    cases taken.node <;> rfl

/-- Beyond the last event nothing is left to read. -/
theorem finish_foldl_of_length_le {cursor : Cursor} (h : events.length ≤ cursor.idx) :
    ((Piece.ofEvents (events.drop cursor.idx)).foldl (Content.append wraps) cursor.content).finish
      = cursor.content.finish := by
  rw [List.drop_eq_nil_of_le h, Piece.ofEvents]
  rfl

/-- **A loop ends within as many rounds as there are events left**, with all their pieces. -/
theorem loop_eq (wraps : Bool) (hinner : Reads inner events.length) (rounds : Nat)
    (cursor : Cursor) (h : events.length ≤ cursor.idx + rounds) :
    loop inner wraps events rounds cursor
      = .ok ((Piece.ofEvents (events.drop cursor.idx)).foldl (Content.append wraps)
          cursor.content).finish := by
  induction rounds generalizing cursor with
  | zero =>
    rw [Nat.add_zero] at h
    rw [loop, if_neg (Nat.not_lt.mpr h), finish_foldl_of_length_le h]
  | succ rounds ih =>
    by_cases hidx : cursor.idx < events.length
    · obtain ⟨next, hnext, hlt, -, hpieces⟩ := exists_step wraps hinner hidx
      rw [loop, if_pos hidx, hnext, ok_bind, ih next (by omega), hpieces]
    · rw [loop, if_neg hidx, finish_foldl_of_length_le (Nat.le_of_not_lt hidx)]

end Rounds

/-! ## Whole lists -/

/-- With a level of recursion for every event, what is inside a tag is read as its content. -/
theorem reads_within (levels : Nat) : Reads (within levels) levels := by
  induction levels with
  | zero => exact fun _ _ h => absurd h (Nat.not_lt_zero _)
  | succ levels ih =>
    intro tag inside hinside
    have hloop := loop_eq (tag = .item) (ih.mono (Nat.le_of_lt_succ hinside))
      inside.length {} (Nat.le_add_left _ _)
    show loop (within levels) (tag = .item) inside inside.length {} = _
    rw [hloop]
    exact congrArg Except.ok (Content.finish_foldl_append tag (Piece.ofEvents inside))

/-- **Reading by index is total.** Whatever the events are, they are read to the end, as the content
of a document and as that of an item. At every start the slice for the inside of the tag is there
and shorter than the events, and what is gone through is at least one of them and at most one more
than there are; so every round moves the cursor on, to the end of the events or one beyond it. -/
theorem read_total :
    (∀ (events : List Event) (levels : Nat), events.length < levels →
        read levels false events = .ok (Node.ofEvents events)
          ∧ read levels true events = .ok (Node.blocksOfEvents events))
      ∧ (∀ (inner : Tag → List Event → Except Slip (List Node)) (tag : Tag) (behind : List Event),
        ∃ inside stop consumed, TagBounds inner tag (.start tag :: behind) inside stop consumed)
      ∧ ∀ (events : List Event) (levels : Nat) (wraps : Bool) (cursor : Cursor),
        events.length ≤ levels → cursor.idx < events.length →
          ∃ next, step (within levels) wraps events cursor = .ok next
            ∧ cursor.idx < next.idx ∧ next.idx ≤ events.length + 1 := by
  refine ⟨fun events levels hlevels => ⟨?_, ?_⟩, fun inner tag behind =>
    ⟨_, _, _, tagBounds_start inner tag behind⟩, fun events levels wraps cursor hlevels hidx => ?_⟩
  · exact reads_within levels .paragraph events hlevels
  · exact reads_within levels .item events hlevels
  · obtain ⟨next, hnext, hlt, hle, -⟩ :=
      exists_step wraps ((reads_within levels).mono hlevels) hidx
    exact ⟨next, hnext, hlt, hle⟩

/-- A stray end, an item that nothing closes, and two more starts, of which the last is lost. -/
theorem read_total_unclosed :
    let events := [Event.stop .item, .start .item, .taskMarker true, .start .emphasis,
      .start .paragraph]
    Event.wellNested events = false
      ∧ read 6 false events = .ok (Node.ofEvents events)
      ∧ read 6 true events = .ok (Node.blocksOfEvents events)
      ∧ ∃ next, step (within 5) false events { idx := 1 } = .ok next ∧ 1 < next.idx
        ∧ next.idx ≤ 6 := by
  intro events
  obtain ⟨hplain, hitem⟩ := read_total.1 events 6 (by decide)
  exact ⟨by decide, hplain, hitem,
    read_total.2.2 events 5 false { idx := 1 } (by decide) (by decide)⟩

end Bracketdown.Slicing
