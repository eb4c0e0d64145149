import Bracketdown.Node.Basic

/-!
# Composing documents by hand

`Phrase`, `Block` and `Entry` are the moves of an author who writes a document as a Lean value:
phrases go into paragraphs and headings, blocks go into the document, into quotes and into list
entries, and entries go into lists. Since each is a type of its own, a heading cannot end up inside
a paragraph. The one way around the content model is `node`, which takes any finished node as it is.

A run of moves is carried out on a page (`Phrasing`, `Flow`, `Listing`) which holds the nodes there
are so far. A move adds its node at the end; one with moves inside it carries these out on a fresh
page first and puts what they leave there into its node. `document` starts from a fresh page. Depths
of headings are not checked here: the stored form refuses a bad depth when it is read.
-/

namespace Bracketdown.Compose

/-- Content of a paragraph, heading or link. -/
inductive Phrase where
  | text (value : String)
  | emphasis (phrases : List Phrase)
  | strong (phrases : List Phrase)
  | strike (phrases : List Phrase)
  | code (value : String)
  | link (url : String) (phrases : List Phrase)
  | image (url : String) (alt : String)
  | lineBreak
  | node (tree : Node)

mutual

/-- Content of a document, quote or list entry. -/
inductive Block where
  | heading (depth : UInt8) (phrases : List Phrase)
  | paragraph (phrases : List Phrase)
  | code (value : String) (lang : Option String)
  | quote (blocks : List Block)
  | bullets (entries : List Entry)
  /-- An ordered list whose first entry has the number `start`. -/
  | numbered (start : UInt64) (entries : List Entry)
  | rule
  | node (tree : Node)

/-- An entry of a list: a line of phrases, perhaps with a task box, or a run of blocks. -/
inductive Entry where
  | line (task : Option Bool) (phrases : List Phrase)
  | blocks (blocks : List Block)

end

/-- A heading of the first depth. -/
def Block.title (phrases : List Phrase) : Block := .heading 1 phrases

/-- A heading of the second depth. -/
def Block.subtitle (phrases : List Phrase) : Block := .heading 2 phrases

/-- An ordered list that counts from one. -/
def Block.counted (entries : List Entry) : Block := .numbered 1 entries

/-! ## Pages -/

/-- A run of phrases as far as it is written. -/
structure Phrasing where
  nodes : Array Node := #[]

/-- A run of blocks as far as it is written. -/
structure Flow where
  nodes : Array Node := #[]

/-- A list as far as it is written. -/
structure Listing where
  ordered : Bool
  start : Option UInt64 := none
  items : Array Node := #[]

namespace Phrasing

/-- Adds a node. -/
def push (phrasing : Phrasing) (node : Node) : Phrasing := ⟨phrasing.nodes.push node⟩

/-- Adds a node around the phrases that `write` leaves on a fresh page. -/
def holding (phrasing : Phrasing) (wrap : List Node → Node) (write : Phrasing → Phrasing) :
    Phrasing :=
  phrasing.push (wrap (write {}).nodes.toList)

end Phrasing

namespace Listing

/-- Adds a node. -/
def push (listing : Listing) (node : Node) : Listing :=
  { listing with items := listing.items.push node }

/-- Adds an item with one paragraph, which has the phrases that `write` leaves on a fresh page. -/
def line (listing : Listing) (task : Option Bool) (write : Phrasing → Phrasing) : Listing :=
  listing.push (.listItem task [.paragraph (write {}).nodes.toList])

/-- Adds an item with the blocks that `write` leaves on a fresh page. -/
def blocks (listing : Listing) (write : Flow → Flow) : Listing :=
  listing.push (.listItem none (write {}).nodes.toList)

/-- The finished list. -/
def finish (listing : Listing) : Node := .list listing.ordered listing.start listing.items.toList

end Listing

namespace Flow

/-- Adds a node. -/
def push (flow : Flow) (node : Node) : Flow := ⟨flow.nodes.push node⟩

/-- Adds a node around the phrases that `write` leaves on a fresh page. -/
def holding (flow : Flow) (wrap : List Node → Node) (write : Phrasing → Phrasing) : Flow :=
  flow.push (wrap (write {}).nodes.toList)

/-- Adds a quote of the blocks that `write` leaves on a fresh page. -/
def quote (flow : Flow) (write : Flow → Flow) : Flow :=
  flow.push (.blockquote (write {}).nodes.toList)

/-- Adds a bullet list. -/
def bullets (flow : Flow) (write : Listing → Listing) : Flow :=
  flow.push (write { ordered := false }).finish

/-- Adds an ordered list; its first number is put in once the entries are there. -/
def numbered (flow : Flow) (start : UInt64) (write : Listing → Listing) : Flow :=
  let listing := write { ordered := true }
  flow.push { listing with start := some start }.finish

end Flow

/-! ## Carrying out the moves -/

mutual

/-- Adds a phrase to a page. -/
def Phrase.call : Phrase → Phrasing → Phrasing
  | .text value, page => page.push (.text value)
  | .emphasis phrases, page => page.holding .emphasis (Phrase.calls phrases)
  | .strong phrases, page => page.holding .strong (Phrase.calls phrases)
  | .strike phrases, page => page.holding .delete (Phrase.calls phrases)
  | .code value, page => page.push (.inlineCode value)
  | .link url phrases, page => page.holding (.link url) (Phrase.calls phrases)
  | .image url alt, page => page.push (.image url alt)
  | .lineBreak, page => page.push (.bare Kind.hardBreak)
  | .node tree, page => page.push tree

/-- Adds phrases to a page, one after the other. -/
def Phrase.calls : List Phrase → Phrasing → Phrasing
  | [], page => page
  | phrase :: rest, page => Phrase.calls rest (phrase.call page)

end

mutual

/-- Adds a block to a page. -/
def Block.call : Block → Flow → Flow
  | .heading depth phrases, page => page.holding (.heading depth) (Phrase.calls phrases)
  | .paragraph phrases, page => page.holding .paragraph (Phrase.calls phrases)
  | .code value lang, page => page.push (.code value lang)
  | .quote blocks, page => page.quote (Block.calls blocks)
  | .bullets entries, page => page.bullets (Entry.calls entries)
  | .numbered start entries, page => page.numbered start (Entry.calls entries)
  | .rule, page => page.push (.bare Kind.thematicBreak)
  | .node tree, page => page.push tree

/-- Adds blocks to a page, one after the other. -/
def Block.calls : List Block → Flow → Flow
  | [], page => page
  | block :: rest, page => Block.calls rest (block.call page)

/-- Adds an entry to a list. -/
def Entry.call : Entry → Listing → Listing
  | .line task phrases, page => page.line task (Phrase.calls phrases)
  | .blocks blocks, page => page.blocks (Block.calls blocks)

/-- Adds entries to a list, one after the other. -/
def Entry.calls : List Entry → Listing → Listing
  | [], page => page
  | entry :: rest, page => Entry.calls rest (entry.call page)

end

/-- The document that the blocks leave on a fresh page. -/
def document (blocks : List Block) : Node := .root (Block.calls blocks {}).nodes.toList

end Bracketdown.Compose
