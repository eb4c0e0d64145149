import Bracketdown.Event.Content

/-!
# Reading by index

A reader that has its events in an array goes through it with a cursor. At a start it looks for the
end, cuts out the slice between the two, reads that in the same way, and is told how many events it
has gone through, by which it moves its cursor on. When there is no end, the index of one is made up
from the length of what is left, and the corrections by one and two that the start and the end call
for come on top of it.

So there is a lot that can go wrong in a list that is not well nested, and each is a `Slip` here: a
slice whose bounds are out of order or beyond the events, an index without an event, and a loop or a
recursion that does not end. A loop has as many rounds as there are events, and when they do not
suffice, that is taken for endless; so are levels of recursion beyond the given number.
-/

namespace Bracketdown.Slicing

/-! ## Indices and slices -/

/-- What goes wrong in reading by index. -/
inductive Slip where
  /-- So many events have no slice between these bounds. -/
  | slice (length start stop : Nat)
  /-- So many events have none at this index. -/
  | index (length idx : Nat)
  /-- A loop is not over when its rounds are, or there is no level of recursion left. -/
  | endless
  deriving Repr, DecidableEq

/-- The events from one index up to another. -/
def slice (events : List Event) (start stop : Nat) : Except Slip (List Event) :=
  if start ≤ stop ∧ stop ≤ events.length then .ok ((events.take stop).drop start)
  else .error (.slice events.length start stop)

/-- The events from an index on. -/
def sliceFrom (events : List Event) (start : Nat) : Except Slip (List Event) :=
  slice events start events.length

/-- The event at an index. -/
def eventAt (events : List Event) (idx : Nat) : Except Slip Event :=
  match events[idx]? with
  | some event => .ok event
  | none => .error (.index events.length idx)

/-! ## One start, one round, one list -/

/-- Whether an event starts a block. -/
def startsBlock : Event → Bool
  | .start tag => tag.isBlock
  | .rule => true
  | _ => false

/-- What is read at the front of some events: the node, if there is one, and how many of the events
have been gone through. -/
structure Taken where
  node : Option Node
  consumed : Nat

/-- The tag that starts in front of some events. `inner` reads what is inside it. -/
def tagAt (inner : Tag → List Event → Except Slip (List Node)) (tag : Tag) (events : List Event) :
    Except Slip Taken := do
  let stop := Event.endIndex tag.kind (← sliceFrom events 1)
  let inside ← slice events 1 (stop + 1)
  let nodes ← inner tag inside
  return ⟨some (tag.node inside nodes), stop + 2⟩

/-- What is in front of some events. -/
def frontOf (inner : Tag → List Event → Except Slip (List Node)) (events : List Event) :
    Except Slip Taken := do
  match ← eventAt events 0 with
  | .start tag => tagAt inner tag events
  | event => return ⟨event.leaf?, 1⟩

/-- How far a reader is, and what it has read up to there. -/
structure Cursor where
  idx : Nat := 0
  content : Content := {}

/-- One round of a reader. In an item, which is what `wraps` says, inline nodes are gathered until a
block comes. -/
def step (inner : Tag → List Event → Except Slip (List Node)) (wraps : Bool) (events : List Event)
    (cursor : Cursor) : Except Slip Cursor := do
  let event ← eventAt events cursor.idx
  let taken ← frontOf inner (← sliceFrom events cursor.idx)
  let content :=
    match taken.node with
    | some node => cursor.content.append wraps ⟨startsBlock event, node⟩
    | none => cursor.content
  return ⟨cursor.idx + max taken.consumed 1, content⟩

/-- The nodes of some events, from a cursor on and within so many rounds. -/
def loop (inner : Tag → List Event → Except Slip (List Node)) (wraps : Bool) (events : List Event) :
    Nat → Cursor → Except Slip (List Node)
  | 0, cursor =>
    if cursor.idx < events.length then .error .endless else .ok cursor.content.finish
  | rounds + 1, cursor =>
    if cursor.idx < events.length then do
      loop inner wraps events rounds (← step inner wraps events cursor)
    else .ok cursor.content.finish

/-- The nodes of some events, within so many levels of recursion. -/
def read : Nat → Bool → List Event → Except Slip (List Node)
  | 0, _, _ => .error .endless
  | levels + 1, wraps, events =>
    loop (fun tag inside => read levels (tag = .item) inside) wraps events events.length {}

/-- The reader of what is inside a tag, with so many levels of recursion left. -/
def within (levels : Nat) (tag : Tag) (inside : List Event) : Except Slip (List Node) :=
  read levels (tag = .item) inside

end Bracketdown.Slicing
