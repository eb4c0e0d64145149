/-!
# Markdown events

A Markdown document is read as a flat list of events: a start and an end for everything that
encloses other content, and one event for everything that does not. A start carries a `Tag` with the
details of what it opens; an end carries only the `TagKind`, since two tags of one kind are closed
alike.
-/

namespace Bracketdown

/-- The levels of headings. -/
inductive Level where
  | one | two | three | four | five | six
  deriving Repr, DecidableEq

namespace Level

/-- The number of a level. -/
def depth : Level → UInt8
  | .one => 1
  | .two => 2
  | .three => 3
  | .four => 4
  | .five => 5
  | .six => 6

/-- The level with a given number. -/
def ofNat? : Nat → Option Level
  | 1 => some .one
  | 2 => some .two
  | 3 => some .three
  | 4 => some .four
  | 5 => some .five
  | 6 => some .six
  | _ => none

end Level

/-- The languages of front matter. -/
inductive FrontMatter where
  | yaml | toml
  deriving Repr, DecidableEq

/-- What an event opens. -/
inductive Tag where
  | paragraph
  | heading (level : Level)
  | blockQuote
  /-- A code block; `info` is the text behind the opening fence, none for an indented block. -/
  | codeBlock (info : Option String)
  | htmlBlock
  /-- A list; `start` is the number of an ordered list's first item. -/
  | list (start : Option UInt64)
  | item
  | footnoteDefinition (label : String)
  | definitionList
  | definitionListTitle
  | definitionListDefinition
  | table
  | tableHead
  | tableRow
  | tableCell
  | emphasis
  | strong
  | strikethrough
  | link (url : String)
  | image (url : String)
  | metadata (language : FrontMatter)
  deriving Repr, DecidableEq

/-- Tags without their details. -/
inductive TagKind where
  | paragraph | heading | blockQuote | codeBlock | htmlBlock | list | item | footnoteDefinition
  | definitionList | definitionListTitle | definitionListDefinition
  | table | tableHead | tableRow | tableCell
  | emphasis | strong | strikethrough | link | image | metadata
  deriving Repr, DecidableEq

/-- The kind of a tag. -/
def Tag.kind : Tag → TagKind
  | .paragraph => .paragraph
  | .heading _ => .heading
  | .blockQuote => .blockQuote
  | .codeBlock _ => .codeBlock
  | .htmlBlock => .htmlBlock
  | .list _ => .list
  | .item => .item
  | .footnoteDefinition _ => .footnoteDefinition
  | .definitionList => .definitionList
  | .definitionListTitle => .definitionListTitle
  | .definitionListDefinition => .definitionListDefinition
  | .table => .table
  | .tableHead => .tableHead
  | .tableRow => .tableRow
  | .tableCell => .tableCell
  | .emphasis => .emphasis
  | .strong => .strong
  | .strikethrough => .strikethrough
  | .link _ => .link
  | .image _ => .image
  | .metadata _ => .metadata

/-- A part of a Markdown document. -/
inductive Event where
  | start (tag : Tag)
  | stop (kind : TagKind)
  | text (value : String)
  | code (value : String)
  /-- HTML that stands as a block, or part of one. -/
  | html (value : String)
  | inlineHtml (value : String)
  | inlineMath (value : String)
  | displayMath (value : String)
  | footnoteReference (label : String)
  | softBreak
  | hardBreak
  | rule
  /-- The box of a task item. -/
  | taskMarker (checked : Bool)
  deriving Repr, DecidableEq

/-- Whether an event encloses nothing and closes nothing. -/
def Event.isPlain : Event → Bool
  | .start _ => false
  | .stop _ => false
  | _ => true

end Bracketdown
