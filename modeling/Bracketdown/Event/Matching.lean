import Bracketdown.Event.Tree

/-!
# The search for an end

What is delivered for a document says more than `Event` does: an end has details of its own, such as
the level of the heading that it ends. Which ends a tag may have is a table with a row for each tag,
and the rows leave the details open (`Closing.closes`). The end of a tag is looked for with a
counter that starts at one, goes up at tags of the same sort and down at their ends, and has found
the end where it comes to zero (`stopFrom`). No other events count.
-/

namespace Bracketdown

/-! ## Ends with their details -/

/-- The marks that a block quote may have. -/
inductive Alert where
  | note | tip | important | warning | caution
  deriving Repr, DecidableEq

/-- What an event closes, with its details. -/
inductive Closing where
  | paragraph
  | heading (level : Level)
  | blockQuote (alert : Option Alert)
  | codeBlock
  | htmlBlock
  | list (ordered : Bool)
  | item
  | footnoteDefinition
  | definitionList
  | definitionListTitle
  | definitionListDefinition
  | table
  | tableHead
  | tableRow
  | tableCell
  | emphasis
  | strong
  | strikethrough
  | link
  | image
  | metadata (language : FrontMatter)
  deriving Repr, DecidableEq

namespace Closing

/-- Whether an end may be that of a tag. -/
def closes : Closing → Tag → Bool
  | .paragraph, .paragraph => true
  | .heading _, .heading _ => true
  | .blockQuote _, .blockQuote => true
  | .codeBlock, .codeBlock _ => true
  | .list _, .list _ => true
  | .item, .item => true
  | .footnoteDefinition, .footnoteDefinition _ => true
  | .table, .table => true
  | .tableHead, .tableHead => true
  | .tableRow, .tableRow => true
  | .tableCell, .tableCell => true
  | .emphasis, .emphasis => true
  | .strong, .strong => true
  | .strikethrough, .strikethrough => true
  | .link, .link _ => true
  | .image, .image _ => true
  | .htmlBlock, .htmlBlock => true
  | .metadata _, .metadata _ => true
  | .definitionList, .definitionList => true
  | .definitionListTitle, .definitionListTitle => true
  | .definitionListDefinition, .definitionListDefinition => true
  | _, _ => false

/-- The kind of the tags that an end may belong to. -/
def kind : Closing → TagKind
  | .paragraph => .paragraph
  | .heading _ => .heading
  | .blockQuote _ => .blockQuote
  | .codeBlock => .codeBlock
  | .htmlBlock => .htmlBlock
  | .list _ => .list
  | .item => .item
  | .footnoteDefinition => .footnoteDefinition
  | .definitionList => .definitionList
  | .definitionListTitle => .definitionListTitle
  | .definitionListDefinition => .definitionListDefinition
  | .table => .table
  | .tableHead => .tableHead
  | .tableRow => .tableRow
  | .tableCell => .tableCell
  | .emphasis => .emphasis
  | .strong => .strong
  | .strikethrough => .strikethrough
  | .link => .link
  | .image => .image
  | .metadata _ => .metadata

end Closing

/-- An event as it is delivered. -/
inductive Delivered where
  | start (tag : Tag)
  | stop (closing : Closing)
  /-- An event that encloses nothing and closes nothing. -/
  | plain (event : Event) (h : event.isPlain = true)

namespace Delivered

/-- The event without the details of an end. -/
def event : Delivered → Event
  | .start tag => .start tag
  | .stop closing => .stop closing.kind
  | .plain event _ => event

/-- Whether an event starts a tag of the same sort. -/
def opens (tag : Tag) : Delivered → Bool
  | .start other => other.kind = tag.kind
  | _ => false

/-- Whether an event ends a tag of the same sort. -/
def closes (tag : Tag) : Delivered → Bool
  | .stop closing => closing.closes tag
  | _ => false

/-! ## The counter -/

/-- The index of the event at which the counter comes to zero, where the first one has the index
`idx` and the counter is at `depth` in front of it. -/
def stopFrom (tag : Tag) (idx : Nat) (depth : Int) : List Delivered → Option Nat
  | [] => none
  | event :: behind =>
    if event.opens tag then stopFrom tag (idx + 1) (depth + 1) behind
    else if event.closes tag then
      if depth - 1 = 0 then some idx else stopFrom tag (idx + 1) (depth - 1) behind
    else stopFrom tag (idx + 1) depth behind

/-- The index of the end of a tag among the events behind its start. If there is none, it is that of
the last event. -/
def matchingEnd (events : List Delivered) (tag : Tag) : Nat :=
  (stopFrom tag 0 1 events).getD (events.length - 1)

end Delivered

end Bracketdown
