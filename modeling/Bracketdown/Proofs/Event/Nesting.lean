import Bracketdown.Event.Tree

/-!
# Well nested events

A list of events is well nested when every end closes the innermost open tag and is of its kind,
and when nothing is left open. `wellNested` says so with a stack of kinds, one event at a time.

The reader keeps no stack. It finds the end of a tag by counting the starts and ends of that tag's
kind alone and passes over all others, so that it is right needs an argument about the whole list:
what stands between a start and its end is well nested itself, hence holds as many ends as starts of
*every* kind, with no end before its start. `Nested` is that argument as a grammar, and
`ofEvents_pair` is its conclusion: a pair around well nested events is one piece, whatever follows.
-/

namespace Bracketdown

/-! ## A stack of kinds -/

namespace Event

/-- The kinds of the open tags behind an event, innermost first; none if the event ends a tag that
is not the innermost one. -/
def nest (kinds : List TagKind) : Event → Option (List TagKind)
  | .start tag => some (tag.kind :: kinds)
  | .stop kind =>
    match kinds with
    | [] => none
    | top :: below => if kind = top then some below else none
  | _ => some kinds

/-- Whether each end in a list closes the innermost open tag and nothing is left open. -/
def wellNested (events : List Event) : Bool := events.foldlM nest [] = some []

theorem nest_plain {event : Event} (h : event.isPlain) (kinds : List TagKind) :
    nest kinds event = some kinds := by
  cases event with
  | start => cases h
  | stop => cases h
  | _ => rfl

/-! ## The grammar -/

/-- A sequence of plain events and of pairs around such sequences. -/
inductive Nested : List Event → Prop where
  | nil : Nested []
  | plain {event : Event} {events : List Event} (hplain : event.isPlain) (h : Nested events) :
      Nested (event :: events)
  | pair {inside behind : List Event} (tag : Tag) (hinside : Nested inside)
      (hbehind : Nested behind) : Nested (.start tag :: (inside ++ .stop tag.kind :: behind))

/-- Such a sequence leaves the stack as it was. -/
theorem Nested.foldlM_nest {events : List Event} (h : Nested events) (kinds : List TagKind) :
    events.foldlM nest kinds = some kinds := by
  induction h generalizing kinds with
  | nil => rfl
  | plain hplain _ ih =>
    rw [List.foldlM_cons, nest_plain hplain]
    exact ih kinds
  | pair tag _ _ ihinside ihbehind =>
    rw [List.foldlM_cons]
    show List.foldlM nest (tag.kind :: kinds) _ = some kinds
    rw [List.foldlM_append, ihinside]
    show List.foldlM nest (tag.kind :: kinds) (.stop tag.kind :: _) = some kinds
    rw [List.foldlM_cons, nest, if_pos rfl]
    exact ihbehind kinds

theorem Nested.append {first second : List Event} (h : Nested first) (h' : Nested second) :
    Nested (first ++ second) := by
  induction h with
  | nil => exact h'
  | plain hplain _ ih => exact .plain hplain ih
  | pair tag hinside _ _ ih =>
    rw [List.cons_append, List.append_assoc, List.cons_append]
    exact .pair tag hinside ih

theorem start_or_stop_or_plain (event : Event) :
    (∃ tag, event = .start tag) ∨ (∃ kind, event = .stop kind) ∨ event.isPlain := by
  cases event with
  | start tag => exact .inl ⟨tag, rfl⟩
  | stop kind => exact .inr (.inl ⟨kind, rfl⟩)
  | _ => exact .inr (.inr rfl)

/-- A list that empties a stack starts with a well nested part. Then the list ends with the stack
empty, or the top of the stack is closed and the rest empties what was below it. -/
theorem exists_nested_prefix (size : Nat) : ∀ (events : List Event) (kinds : List TagKind),
    events.length ≤ size → events.foldlM nest kinds = some [] →
    ∃ inside, Nested inside ∧
      (kinds = [] ∧ events = inside
        ∨ ∃ top below behind, kinds = top :: below ∧ events = inside ++ .stop top :: behind
          ∧ behind.foldlM nest below = some []) := by
  -- What follows a pair is not the tail of the list, so the induction is on a bound of the length.
  induction size with
  | zero =>
    intro events kinds hsize h
    obtain rfl := List.eq_nil_of_length_eq_zero (Nat.le_zero.mp hsize)
    cases h
    exact ⟨[], .nil, .inl ⟨rfl, rfl⟩⟩
  | succ size ih =>
    intro events kinds hsize h
    cases events with
    | nil =>
      cases h
      exact ⟨[], .nil, .inl ⟨rfl, rfl⟩⟩
    | cons event events =>
      rw [List.length_cons] at hsize
      rw [List.foldlM_cons] at h
      rcases start_or_stop_or_plain event with ⟨tag, rfl⟩ | ⟨kind, rfl⟩ | hplain
      · obtain ⟨inside, hinside, hend | ⟨_, _, behind, hkinds, rfl, hbehind⟩⟩ :=
          ih events (tag.kind :: kinds) (by omega) h
        · cases hend.1
        · -- The tag is closed behind `inside`; what follows it empties the stack around it.
          cases hkinds
          have hshort : behind.length ≤ size := by
            rw [List.length_append, List.length_cons] at hsize
            omega
          obtain ⟨more, hmore, ⟨rfl, rfl⟩ | ⟨top, below, rest, rfl, rfl, hrest⟩⟩ :=
            ih behind kinds hshort hbehind
          · exact ⟨_, .pair tag hinside hmore, .inl ⟨rfl, rfl⟩⟩
          · refine ⟨_, .pair tag hinside hmore, .inr ⟨top, below, rest, rfl, ?_, hrest⟩⟩
            rw [List.cons_append, List.append_assoc, List.cons_append]
      · cases kinds with
        | nil => cases h
        | cons top below =>
          by_cases hkind : kind = top
          · subst hkind
            rw [nest, if_pos rfl] at h
            exact ⟨[], .nil, .inr ⟨kind, below, events, rfl, rfl, h⟩⟩
          · rw [nest, if_neg hkind] at h
            cases h
      · rw [nest_plain hplain] at h
        obtain ⟨inside, hinside, ⟨hkinds, rfl⟩ | ⟨top, below, behind, hkinds, rfl, hbehind⟩⟩ :=
          ih events kinds (by omega) h
        · exact ⟨_, .plain hplain hinside, .inl ⟨hkinds, rfl⟩⟩
        · exact ⟨_, .plain hplain hinside, .inr ⟨top, below, behind, hkinds, rfl, hbehind⟩⟩

/-- The stack and the grammar say the same. -/
theorem wellNested_iff {events : List Event} : wellNested events = true ↔ Nested events := by
  unfold wellNested
  rw [decide_eq_true_iff]
  constructor
  · intro h
    obtain ⟨inside, hinside, ⟨-, rfl⟩ | ⟨_, _, _, hkinds, -⟩⟩ :=
      exists_nested_prefix _ events [] (Nat.le_refl _) h
    · exact hinside
    · cases hkinds
  · intro h
    exact h.foldlM_nest []

/-! ## The scan for an end -/

theorem opens_plain {event : Event} (h : event.isPlain) (kind : TagKind) :
    event.opens kind = false := by
  cases event with
  | start => cases h
  | _ => rfl

theorem closes_plain {event : Event} (h : event.isPlain) (kind : TagKind) :
    event.closes kind = false := by
  cases event with
  | stop => cases h
  | _ => rfl

theorem endIndex?_of_not_closes {kind : TagKind} {event : Event} (h : event.closes kind = false)
    (depth : Nat) (events : List Event) :
    endIndex? kind depth (event :: events)
      = (endIndex? kind (if event.opens kind then depth + 1 else depth) events).map (· + 1) := by
  cases depth <;> rw [endIndex?, h, if_neg Bool.false_ne_true] <;> split <;> rfl

theorem endIndex?_stop_succ (kind : TagKind) (depth : Nat) (events : List Event) :
    endIndex? kind (depth + 1) (.stop kind :: events)
      = (endIndex? kind depth events).map (· + 1) := by
  rw [endIndex?, closes, decide_eq_true rfl, if_pos rfl]

/-- The scan passes over well nested events: whatever kind it counts, it is as deep behind them as
before them, and it never comes to its end inside. -/
theorem endIndex?_append {inside : List Event} (h : Nested inside) (kind : TagKind) (depth : Nat)
    (behind : List Event) :
    endIndex? kind depth (inside ++ behind)
      = (endIndex? kind depth behind).map (· + inside.length) := by
  induction h generalizing depth behind with
  | nil => rw [List.nil_append, List.length_nil]; simp
  | @plain event events hplain _ ih =>
    rw [List.cons_append, endIndex?_of_not_closes (closes_plain hplain kind),
      opens_plain hplain, if_neg Bool.false_ne_true, ih, Option.map_map]
    rfl
  | @pair within rest tag _ _ ihwithin ihrest =>
    rw [List.cons_append, List.append_assoc, List.cons_append, endIndex?_of_not_closes rfl,
      ihwithin]
    -- Behind `within` the scan is where it was, one deeper if it counts the kind of the pair.
    have hstop : endIndex? kind (if (Event.start tag).opens kind then depth + 1 else depth)
        (.stop tag.kind :: (rest ++ behind))
          = (endIndex? kind depth (rest ++ behind)).map (· + 1) := by
      by_cases hkind : tag.kind = kind
      · subst hkind
        rw [opens, decide_eq_true rfl, if_pos rfl, endIndex?_stop_succ]
      · rw [opens, decide_eq_false hkind, if_neg Bool.false_ne_true,
          endIndex?_of_not_closes (by rw [closes, decide_eq_false hkind])]
        rfl
    rw [hstop, ihrest]
    cases endIndex? kind depth behind with
    | none => rfl
    | some i =>
      simp only [Option.map_some, Option.some.injEq, List.length_cons, List.length_append]
      omega

/-- The end of a tag around well nested events is the one behind them. -/
theorem endIndex_pair {inside : List Event} (h : Nested inside) (kind : TagKind)
    (behind : List Event) : endIndex kind (inside ++ .stop kind :: behind) = inside.length := by
  rw [endIndex, endIndex?_append h, endIndex?]
  simp [closes]

/-- The piece of an event that encloses nothing, if it has one. -/
def piece? (event : Event) : Option Piece := event.leaf?.map fun node => ⟨event = .rule, node⟩

end Event

namespace Piece

/-- An event that encloses nothing is one piece, or none. -/
theorem ofEvents_plain {event : Event} (h : event.isPlain) (events : List Event) :
    ofEvents (event :: events) = event.piece?.toList ++ ofEvents events := by
  rw [ofEvents]
  · unfold Event.piece?
    cases event.leaf? <;> rfl
  · rintro tag rfl
    cases h

/-- **A pair around well nested events is one piece, whatever follows it.** -/
theorem ofEvents_pair {inside : List Event} (h : Event.Nested inside) (tag : Tag)
    (behind : List Event) :
    ofEvents (.start tag :: (inside ++ .stop tag.kind :: behind))
      = ⟨tag.isBlock, tag.node inside (tag.content (ofEvents inside))⟩ :: ofEvents behind := by
  rw [ofEvents]
  simp only [Event.endIndex_pair h, List.take_left']
  have hdrop : (inside ++ Event.stop tag.kind :: behind).drop (inside.length + 1) = behind := by
    rw [← List.drop_drop, List.drop_left, List.drop_one, List.tail_cons]
  rw [hdrop]

/-- Well nested events have the same pieces whatever follows them. -/
theorem ofEvents_append {events : List Event} (h : Event.Nested events) (behind : List Event) :
    ofEvents (events ++ behind) = ofEvents events ++ ofEvents behind := by
  induction h with
  | nil =>
    rw [List.nil_append, ofEvents]
    rfl
  | plain hplain _ ih =>
    rw [List.cons_append, ofEvents_plain hplain, ih, ofEvents_plain hplain, List.append_assoc]
  | pair tag hinside _ _ ih =>
    rw [List.cons_append, List.append_assoc, List.cons_append, ofEvents_pair hinside, ih,
      ofEvents_pair hinside, List.cons_append]

end Piece

end Bracketdown
