import Bracketdown.Event.Matching
import Bracketdown.Proofs.Event.Nesting

/-!
# The end that is found

`matchingEnd_eq_length` says where the search for the end of a tag comes to: behind a well nested
list, however many tags of the same sort are nested in it, at the end that follows it, whatever
comes after. If no part from the front has one end more than it has starts, there is no such place,
and the last event is taken for it. All this is so of the search that the reader makes, which is the
same (`matchingEnd_eq_endIndex`).
-/

namespace Bracketdown

/-- No row of the table is missing, and none is too much. -/
theorem Closing.closes_eq (closing : Closing) (tag : Tag) :
    closing.closes tag = decide (closing.kind = tag.kind) := by
  cases closing <;> cases tag <;> rfl

namespace Delivered

theorem opens_event (tag : Tag) (event : Delivered) :
    event.event.opens tag.kind = event.opens tag := by
  cases event with
  | start | stop => rfl
  | plain event h => exact Event.opens_plain h tag.kind

theorem closes_event (tag : Tag) (event : Delivered) :
    event.event.closes tag.kind = event.closes tag := by
  cases event with
  | start => rfl
  | stop closing => exact (closing.closes_eq tag).symm
  | plain event h => exact Event.closes_plain h tag.kind

/-- What starts a tag ends none. -/
theorem closes_of_opens {tag : Tag} {event : Delivered} (h : event.opens tag = true) :
    event.closes tag = false := by
  cases event with
  | start => rfl
  | stop | plain => cases h

/-! ## Nesting -/

/-- The open tags behind an event, innermost first; none if the event ends a tag that is not the
innermost one. -/
def nest (tags : List Tag) : Delivered → Option (List Tag)
  | .start tag => some (tag :: tags)
  | .stop closing =>
    match tags with
    | [] => none
    | top :: below => if closing.closes top then some below else none
  | .plain _ _ => some tags

/-- Whether each end in a list closes the innermost open tag and nothing is left open. -/
def wellNested (events : List Delivered) : Bool := events.foldlM nest [] = some []

theorem map_kind_nest (tags : List Tag) (event : Delivered) :
    (nest tags event).map (List.map Tag.kind) = Event.nest (tags.map Tag.kind) event.event := by
  cases event with
  | start => rfl
  | stop closing =>
    cases tags with
    | nil => rfl
    | cons top below =>
      show (if closing.closes top then some below else none).map _
        = if closing.kind = top.kind then some (below.map Tag.kind) else none
      rw [closing.closes_eq top]
      by_cases h : closing.kind = top.kind <;> simp [h]
  | plain event h => exact (Event.nest_plain h _).symm

theorem map_kind_foldlM_nest (events : List Delivered) (tags : List Tag) :
    (events.foldlM nest tags).map (List.map Tag.kind)
      = (events.map event).foldlM Event.nest (tags.map Tag.kind) := by
  induction events generalizing tags with
  | nil => rfl
  | cons event events ih =>
    rw [List.foldlM_cons, List.map_cons, List.foldlM_cons, ← map_kind_nest]
    cases nest tags event with
    | none => rfl
    | some tags => exact ih tags

/-- The details make no difference to nesting. -/
theorem nested_of_wellNested {events : List Delivered} (h : wellNested events = true) :
    Event.Nested (events.map event) := by
  rw [← Event.wellNested_iff, Event.wellNested, decide_eq_true_iff]
  have hmap := map_kind_foldlM_nest events []
  rw [of_decide_eq_true h] at hmap
  exact hmap.symm

/-! ## The counter -/

/-- The counter is one more than the number of tags of the kind that are open inside. -/
theorem stopFrom_eq (tag : Tag) (idx depth : Nat) (events : List Delivered) :
    stopFrom tag idx (depth + 1) events
      = (Event.endIndex? tag.kind depth (events.map event)).map (idx + ·) := by
  induction events generalizing idx depth with
  | nil => rfl
  | cons event events ih =>
    have hnext : ∀ found : Option Nat,
        found.map (idx + 1 + ·) = (found.map (· + 1)).map (idx + ·) := by
      intro found
      rw [Option.map_map]
      cases found with
      | none => rfl
      | some i => exact congrArg some (by simp only [Function.comp]; omega)
    rw [List.map_cons, stopFrom]
    cases hcloses : event.closes tag with
    | false =>
      rw [Event.endIndex?_of_not_closes (by rw [closes_event, hcloses]), opens_event,
        if_neg Bool.false_ne_true, ← hnext]
      split
      · exact ih (idx + 1) (depth + 1)
      · exact ih (idx + 1) depth
    | true =>
      have hopens : ¬ event.opens tag = true := by
        intro hopens
        rw [closes_of_opens hopens] at hcloses
        cases hcloses
      rw [if_neg hopens, if_pos rfl, Int.add_sub_cancel]
      cases depth with
      | zero =>
        rw [Event.endIndex?, closes_event, hcloses]
        rfl
      | succ depth =>
        rw [Event.endIndex?, closes_event, hcloses, if_pos rfl, if_neg (by omega), ← hnext]
        exact ih (idx + 1) depth

/-- The search with a counter is the reader's. -/
theorem matchingEnd_eq_endIndex (events : List Delivered) (tag : Tag) :
    matchingEnd events tag = Event.endIndex tag.kind (events.map event) := by
  have hstop : stopFrom tag 0 1 events
      = (Event.endIndex? tag.kind 0 (events.map event)).map (0 + ·) := stopFrom_eq tag 0 0 events
  have hid : (fun i : Nat => 0 + i) = id := funext Nat.zero_add
  rw [matchingEnd, hstop, hid, Option.map_id_fun, id, Event.endIndex, List.length_map]

/-- By how much an event moves the counter. -/
def move (tag : Tag) (event : Delivered) : Int :=
  if event.opens tag then 1 else if event.closes tag then -1 else 0

/-- An event is the one that is looked for if it is an end and brings the counter to zero. -/
theorem stopFrom_cons (tag : Tag) (idx : Nat) (depth : Int) (event : Delivered)
    (behind : List Delivered) :
    stopFrom tag idx depth (event :: behind)
      = if event.closes tag = true ∧ depth + event.move tag = 0 then some idx
        else stopFrom tag (idx + 1) (depth + event.move tag) behind := by
  rw [stopFrom, move]
  by_cases hopens : event.opens tag = true
  · rw [if_pos hopens, if_pos hopens, if_neg (by simp [closes_of_opens hopens])]
  rw [if_neg hopens, if_neg hopens]
  by_cases hcloses : event.closes tag = true
  · rw [if_pos hcloses, if_pos hcloses, ← Int.sub_eq_add_neg]
    simp only [hcloses, true_and]
  · rw [if_neg hcloses, if_neg hcloses, if_neg fun h => hcloses h.1, Int.add_zero]

/-- By how much a list of events moves the counter. -/
def moves (tag : Tag) (events : List Delivered) : Int :=
  events.countP (opens tag) - events.countP (closes tag)

theorem moves_cons (tag : Tag) (event : Delivered) (events : List Delivered) :
    moves tag (event :: events) = event.move tag + moves tag events := by
  rw [moves, moves, move, List.countP_cons, List.countP_cons]
  cases hopens : event.opens tag with
  | true =>
    simp [closes_of_opens hopens]
    omega
  | false =>
    cases event.closes tag with
    | true =>
      simp
      omega
    | false => simp

/-- No end is found if no part of the events from the front brings the counter to zero. -/
theorem stopFrom_eq_none {tag : Tag} {events : List Delivered} {depth : Int}
    (h : ∀ front, front <+: events → depth + moves tag front ≠ 0) (idx : Nat) :
    stopFrom tag idx depth events = none := by
  induction events generalizing idx depth with
  | nil => rfl
  | cons event events ih =>
    have hfront : ∀ front, front <+: events →
        depth + event.move tag + moves tag front ≠ 0 := by
      intro front hprefix
      have hne := h (event :: front) (List.cons_prefix_cons.mpr ⟨rfl, hprefix⟩)
      rwa [moves_cons, ← Int.add_assoc] at hne
    rw [stopFrom_cons, if_neg]
    · exact ih hfront (idx + 1)
    · -- The event alone is such a part.
      rintro ⟨-, hzero⟩
      exact hfront [] List.nil_prefix (by rw [hzero]; rfl)

/-- **The end that is found is the true one.** Behind a well nested list, with any number of tags of
the same sort in it, it is the end that follows the list, with whatever details and whatever behind
it. If no part of the events from the front has one end of the sort more than it has starts, it is
the last event, and index zero if there are none. -/
theorem matchingEnd_eq_length (tag : Tag) :
    (∀ inside closing behind, wellNested inside = true → closing.closes tag = true →
        matchingEnd (inside ++ [.stop closing] ++ behind) tag = inside.length)
      ∧ (∀ events : List Delivered,
        (∀ front, front <+: events →
          front.countP (closes tag) ≠ front.countP (opens tag) + 1) →
        matchingEnd events tag = events.length - 1)
      ∧ ∀ events, Event.endIndex tag.kind (events.map event) = matchingEnd events tag := by
  refine ⟨fun inside closing behind hinside hclosing => ?_, fun events hfront => ?_,
    fun events => (matchingEnd_eq_endIndex events tag).symm⟩
  · have hkind : closing.kind = tag.kind := by
      rw [closing.closes_eq] at hclosing
      exact of_decide_eq_true hclosing
    have hend := Event.endIndex_pair (nested_of_wellNested hinside) closing.kind
      (behind.map event)
    rw [matchingEnd_eq_endIndex, List.append_assoc, List.map_append, ← hkind]
    exact hend.trans (List.length_map _)
  · rw [matchingEnd, stopFrom_eq_none]
    · rfl
    · intro front hprefix hzero
      rw [moves] at hzero
      exact hfront front hprefix (by omega)

/-- A list with a numbered one in it and the end of another sort of list, and the same without that
end behind the start of a second list. -/
theorem matchingEnd_eq_length_list :
    let inside := [Delivered.start .item, .start (.list (some 3)), .start .item, .stop .item,
      .stop (.list true), .stop .item]
    let unclosed := Delivered.start (.list none) :: inside ++ [.stop (.list true)]
    wellNested inside = true ∧ (Closing.list true).closes (.list none) = true
      ∧ matchingEnd (inside ++ [.stop (.list true)] ++ [.stop (.list false)]) (.list none) = 6
      ∧ matchingEnd unclosed (.list none) = 7 := by
  intro inside unclosed
  have hinside : wellNested inside = true := by decide
  have hfronts : ∀ size ≤ 8, (unclosed.take size).countP (closes (.list none))
      ≠ (unclosed.take size).countP (opens (.list none)) + 1 := by decide
  refine ⟨hinside, rfl, (matchingEnd_eq_length (.list none)).1 inside _ _ hinside rfl,
    (matchingEnd_eq_length (.list none)).2.1 unclosed fun front hprefix => ?_⟩
  rw [List.prefix_iff_eq_take.mp hprefix]
  exact hfronts front.length hprefix.length_le

end Delivered

end Bracketdown
