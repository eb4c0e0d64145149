import Bracketdown.Event.Basic

/-!
# Emphasis

Asterisks, underscores and tildes come in runs, and a run can open emphasis, close it, or both,
depending on what stands around it. `Token.resolve` settles which runs belong together, for the
content of one paragraph or of one link: from left to right each run that can close looks for the
nearest open run that fits, and what is left of runs without a partner is text.

Two runs fit if they have the same sign and, unless neither of them can both open and close, lengths
that do not add up to a multiple of three, or are multiples of three each. Runs of tildes have to be
of the same length. Where two runs meet, signs go away in pairs for strong emphasis as long as they
last, and a single one for emphasis around it.
-/

namespace Bracketdown.Markdown

/-- A run of signs that can open or close emphasis. -/
structure Run where
  sign : Char
  length : Nat
  opens : Bool
  closes : Bool
  deriving Repr, DecidableEq

/-- A part of a text in which emphasis is not settled yet. -/
inductive Token where
  /-- Content that is settled. -/
  | settled (events : List Event)
  | run (run : Run)
  /-- A line break that is written with a backslash. -/
  | lineBreak
  deriving Repr, DecidableEq

namespace Emphasis

/-- A run that waits for a partner. -/
structure Opener where
  run : Run
  /-- The signs that are left of it. -/
  count : Nat
  /-- What follows it, the last event first. -/
  content : List Event

/-- Whether a run can both open and close. -/
def isTwoSided (run : Run) : Bool := run.opens && run.closes

/-- Whether a run can be closed by another one. -/
def fits (opener closer : Run) : Bool :=
  opener.sign = closer.sign
    && (closer.sign ≠ '~' || opener.length = closer.length)
    && ((!isTwoSided opener && !isTwoSided closer)
      || (opener.length + closer.length) % 3 ≠ 0 || closer.length % 3 = 0)

/-- Signs as text. -/
def signs (sign : Char) (count : Nat) : Event := .text (String.ofList (List.replicate count sign))

/-- Content between two tags of one kind; both are written backwards. -/
def wrap (tag : Tag) (content : List Event) : List Event :=
  .stop tag.kind :: (content ++ [.start tag])

/-- Content, written backwards, between as many signs on each side. -/
def emphasize (sign : Char) : Nat → List Event → List Event
  | 0, content => content
  | 1, content => wrap (if sign = '~' then .strikethrough else .emphasis) content
  | n + 2, content =>
    emphasize sign n (wrap (if sign = '~' then .strikethrough else .strong) content)

/-- Where to give up the search for an opener, by the sign and the sort of the run that searches. -/
abbrev Floors := List ((Char × Nat) × Nat)

/-- The sort of runs that cannot both open and close. Other runs are of sort 0, 1 or 2. -/
def oneSided : Nat := 3

/-- The floor of a sort of runs. -/
def floorAt (floors : Floors) (sign : Char) (sort : Nat) : Nat :=
  (floors.lookup (sign, sort)).getD 0

/-- The sort of a run of which `count` signs are left, among those with its sign. -/
def sortOf (run : Run) (count : Nat) : Nat := if run.sign = '~' then 0 else count % 3

/-- How many of the outermost openers are no partners for a run. -/
def floorOf (floors : Floors) (run : Run) (count : Nat) : Nat :=
  let floor := floorAt floors run.sign (sortOf run count)
  if run.sign = '~' || isTwoSided run then floor
  else min floor (floorAt floors run.sign oneSided)

/-- The sorts for which a run that found no partner sets the floor. -/
def settledSorts (run : Run) (count : Nat) : List Nat :=
  if run.sign = '~' || isTwoSided run then [sortOf run count]
  else if run.sign = '_' then [oneSided]
  else [sortOf run count, oneSided]

/-- A run that found no partner among the openers leaves none to the next one like it. -/
def raise (floors : Floors) (run : Run) (count height : Nat) : Floors :=
  (settledSorts run count).map (fun sort => ((run.sign, sort), height)) ++ floors

/-- No floor is above the number of openers. -/
def lower (floors : Floors) (height : Nat) : Floors :=
  floors.map fun (key, floor) => (key, min floor height)

/-- A text of which a part has been settled. -/
structure State where
  /-- The openers, the innermost first. -/
  openers : List Opener := []
  /-- What stands before all openers, the last event first. -/
  before : List Event := []
  floors : Floors := []

namespace State

/-- Adds events, which are written backwards. -/
def add (events : List Event) (state : State) : State :=
  match state.openers with
  | opener :: outer =>
    { state with openers := { opener with content := events ++ opener.content } :: outer }
  | [] => { state with before := events ++ state.before }

/-- An opener without a partner: its signs as text and what follows them, written backwards. -/
def asText (opener : Opener) : List Event :=
  opener.content ++ [signs opener.run.sign opener.count]

/-- Closes openers by a run of which `count` signs are left: the state, and the signs that found no
partner. Each round takes a sign away, so their number is fuel enough. -/
def closeWith (run : Run) : Nat → Nat → State → State × Nat
  | 0, count, state => (state, count)
  | fuel + 1, count, state =>
    let height := state.openers.length
    let reach := state.openers.take (height - floorOf state.floors run count)
    match reach.findIdx? fun opener => fits opener.run run with
    | none => ({ state with floors := raise state.floors run count height }, count)
    | some i =>
      match state.openers.drop i with
      | [] => (state, count)
      | opener :: outer =>
        -- Openers inside the partner stay without one, so their signs are text.
        let inner := (state.openers.take i).flatMap asText ++ opener.content
        let matched := min count opener.count
        let events := emphasize run.sign matched inner
        let outside : State :=
          { state with openers := outer, floors := lower state.floors outer.length }
        let state :=
          if matched < opener.count then
            -- The signs nearer to the content go first; the others wait for a later run.
            let left := { opener with count := opener.count - matched, content := events }
            { outside with openers := left :: outer }
          else outside.add events
        if matched = count then (state, 0) else closeWith run fuel (count - matched) state

/-- Takes a run of signs. -/
def addRun (run : Run) (state : State) : State :=
  let (state, left) :=
    if run.closes then closeWith run run.length run.length state else (state, run.length)
  if left = 0 then state
  else if run.opens then { state with openers := ⟨run, left, []⟩ :: state.openers }
  else state.add [signs run.sign left]

/-- Takes the next token. -/
def next (state : State) : Token → State
  | .settled events => state.add events.reverse
  | .run run => state.addRun run
  | .lineBreak => state.add [.hardBreak]

/-- All events, in order. -/
def events (state : State) : List Event :=
  (state.openers.flatMap asText ++ state.before).reverse

end State

/-- Whether a token is a run. -/
def isRun : Token → Bool
  | .run _ => true
  | _ => false

/-- Tokens with a line break at their end as the backslash it is written with, if emphasis may stand
before it. -/
def settleEnd (tokens : List Token) : List Token :=
  match tokens.reverse with
  | .lineBreak :: before =>
    if before.any isRun then (.settled [.text "\\"] :: before).reverse else tokens
  | _ => tokens

/-- The events of tokens, with emphasis settled. -/
def resolve (tokens : List Token) : List Event :=
  ((settleEnd tokens).foldl State.next {}).events

end Emphasis

end Bracketdown.Markdown
