import Bracketdown.Node.Compose
import Bracketdown.Proofs.Node.RoundTrip

/-!
# Documents composed by hand

A move adds exactly one node at the end of its page, whatever stands there already, and the node is
the one the move stands for by itself (`Block.call_eq`). So a run of moves leaves one node for each
of them, in their order (`Block.calls_eq`), and a document is its blocks side by side
(`document_eq`).

What kinds of nodes may be where is said by two tables: the role a node plays under the node above
it (`Node.role?`), and the role a node has room for (`Node.held?`). In the tree of a document that
is composed without finished nodes, and with depths of headings that can be stored, the two agree at
every node. This is an induction over the moves, one case for each, with the storing of the tree
carried along.
-/

namespace Bracketdown.Node

/-- What a node can be to the node above it. -/
inductive Role where
  /-- Part of a document, a quote or a list item. -/
  | block
  /-- Part of a paragraph, a heading, a link or of marked text. -/
  | phrase
  /-- Part of a list. -/
  | entry
  deriving DecidableEq, Repr

/-- The role that a node plays. Documents play none, and of the other kinds only the two breaks
play one, as long as they are bare. -/
def role? : Node → Option Role
  | .heading _ _ | .paragraph _ | .code _ _ | .blockquote _ | .list _ _ _ => some .block
  | .text _ | .emphasis _ | .strong _ | .delete _ | .inlineCode _ | .link _ _ | .image _ _ =>
    some .phrase
  | .listItem _ _ => some .entry
  | .other kind none none =>
    if kind = Kind.thematicBreak then some .block
    else if kind = Kind.hardBreak then some .phrase
    else none
  | .root _ | .other _ _ _ => none

/-- The role that the children of a node play; leaves have room for none. -/
def held? : Node → Option Role
  | .root _ | .blockquote _ | .listItem _ _ => some .block
  | .paragraph _ | .heading _ _ | .emphasis _ | .strong _ | .delete _ | .link _ _ => some .phrase
  | .list _ _ _ => some .entry
  | .text _ | .inlineCode _ | .code _ _ | .image _ _ | .other _ _ _ => none

/-- Whether a node is a list. -/
def isList : Node → Bool
  | .list _ _ _ => true
  | _ => false

/-- Whether a node is a list item. -/
def isListItem : Node → Bool
  | .listItem _ _ => true
  | _ => false

theorem role?_eq_entry {node : Node} : node.role? = some .entry ↔ node.isListItem = true := by
  unfold role? isListItem
  grind

theorem held?_eq_entry {node : Node} : node.held? = some .entry ↔ node.isList = true := by
  cases node <;> simp [held?, isList]

/-- A tree in which everything is where it may be. -/
structure ContentModel (tree : Node) : Prop where
  /-- The tree is a document. -/
  root : ∃ children, tree = .root children
  /-- Every child plays the role that the node above it has room for. -/
  fits : ∀ parent ∈ tree.preorder, ∀ child ∈ parent.children,
    ∃ role, parent.held? = some role ∧ child.role? = some role
  /-- The children of lists, and no others, are list items. -/
  items : ∀ parent ∈ tree.preorder, ∀ child ∈ parent.children, child.isListItem = parent.isList
  /-- A list is ordered exactly when it has a first number. -/
  numbers : ∀ ordered start children, .list ordered start children ∈ tree.preorder →
    ordered = start.isSome

/-! ## What holds of a composed tree at every node -/

/-- A list is ordered exactly when it has a first number. -/
def NumberedHere : Node → Prop
  | .list ordered start _ => ordered = start.isSome
  | _ => True

/-- What the content model and the stored form ask of a node. -/
structure ProperHere (node : Node) : Prop where
  fits : ∀ child ∈ node.children, ∃ role, node.held? = some role ∧ child.role? = some role
  numbered : node.NumberedHere
  storable : node.StorableHere

/-- A node with the given role, proper as far down as it goes. -/
structure Proper (role : Role) (node : Node) : Prop where
  role : node.role? = some role
  below : node.Everywhere ProperHere

theorem everywhere_properHere {node : Node} {held : Role} (hheld : node.held? = some held)
    (hnumbered : node.NumberedHere) (hstorable : node.StorableHere)
    (hchildren : ∀ child ∈ node.children, Proper held child) : node.Everywhere ProperHere :=
  everywhere_iff.mpr
    ⟨⟨fun child hchild => ⟨held, hheld, (hchildren child hchild).role⟩, hnumbered, hstorable⟩,
      fun child hchild => (hchildren child hchild).below⟩

theorem proper_of_leaf {node : Node} {role : Role} (hrole : node.role? = some role)
    (hchildren : node.children = []) (hnumbered : node.NumberedHere)
    (hstorable : node.StorableHere) : Proper role node where
  role := hrole
  below := by
    refine everywhere_of_leaf ⟨fun child hchild => ?_, hnumbered, hstorable⟩ hchildren
    rw [hchildren] at hchild
    exact absurd hchild List.not_mem_nil

/-- A document whose nodes are all proper follows the content model. -/
theorem contentModel_of_everywhere {children : List Node}
    (h : (root children).Everywhere ProperHere) : ContentModel (.root children) where
  root := ⟨children, rfl⟩
  fits parent hparent := (h parent hparent).fits
  items parent hparent child hchild := by
    obtain ⟨role, hheld, hrole⟩ := (h parent hparent).fits child hchild
    rw [Bool.eq_iff_iff, ← role?_eq_entry, ← held?_eq_entry, hheld, hrole]
  numbers ordered start _ hlist := (h _ hlist).numbered

end Bracketdown.Node

namespace Bracketdown.Compose

/-! ## What a move stands for -/

mutual

/-- The node a phrase stands for. -/
def Phrase.toNode : Phrase → Node
  | .text value => .text value
  | .emphasis phrases => .emphasis (Phrase.toNodes phrases)
  | .strong phrases => .strong (Phrase.toNodes phrases)
  | .strike phrases => .delete (Phrase.toNodes phrases)
  | .code value => .inlineCode value
  | .link url phrases => .link url (Phrase.toNodes phrases)
  | .image url alt => .image url alt
  | .lineBreak => .bare Kind.hardBreak
  | .node tree => tree

/-- The nodes of a run of phrases, one for each. -/
def Phrase.toNodes : List Phrase → List Node
  | [] => []
  | phrase :: rest => phrase.toNode :: Phrase.toNodes rest

end

mutual

/-- The node a block stands for. -/
def Block.toNode : Block → Node
  | .heading depth phrases => .heading depth (Phrase.toNodes phrases)
  | .paragraph phrases => .paragraph (Phrase.toNodes phrases)
  | .code value lang => .code value lang
  | .quote blocks => .blockquote (Block.toNodes blocks)
  | .bullets entries => .list false none (Entry.toNodes entries)
  | .numbered start entries => .list true (some start) (Entry.toNodes entries)
  | .rule => .bare Kind.thematicBreak
  | .node tree => tree

/-- The nodes of a run of blocks, one for each. -/
def Block.toNodes : List Block → List Node
  | [] => []
  | block :: rest => block.toNode :: Block.toNodes rest

/-- The list item an entry stands for; a line becomes the item's one paragraph. -/
def Entry.toNode : Entry → Node
  | .line task phrases => .listItem task [.paragraph (Phrase.toNodes phrases)]
  | .blocks blocks => .listItem none (Block.toNodes blocks)

/-- The items of a list, one for each entry. -/
def Entry.toNodes : List Entry → List Node
  | [] => []
  | entry :: rest => entry.toNode :: Entry.toNodes rest

end

theorem Block.toNodes_eq_map (blocks : List Block) : Block.toNodes blocks = blocks.map toNode := by
  induction blocks with
  | nil => rfl
  | cons block rest ih => rw [Block.toNodes, ih, List.map_cons]

/-! ## What a move adds -/

mutual

/-- A phrase adds the node it stands for, and nothing else. -/
theorem Phrase.call_eq (page : Phrasing) :
    ∀ phrase : Phrase, phrase.call page = page.push phrase.toNode
  | .text _ | .code _ | .image _ _ | .lineBreak | .node _ => by
    rw [Phrase.call, Phrase.toNode]
  | .emphasis phrases | .strong phrases | .strike phrases | .link _ phrases => by
    rw [Phrase.call, Phrasing.holding, Phrase.nodes_calls, Phrase.toNode]

/-- Phrases add the nodes they stand for, in their order, behind what is there. -/
theorem Phrase.calls_eq (page : Phrasing) :
    ∀ phrases : List Phrase, Phrase.calls phrases page = ⟨page.nodes ++ Phrase.toNodes phrases⟩
  | [] => by simp [Phrase.calls, Phrase.toNodes]
  | phrase :: rest => by
    rw [Phrase.calls, Phrase.call_eq page phrase, Phrase.calls_eq _ rest, Phrase.toNodes]
    simp [Phrasing.push]

/-- What phrases leave on a fresh page. -/
theorem Phrase.nodes_calls (phrases : List Phrase) :
    (Phrase.calls phrases {}).nodes.toList = Phrase.toNodes phrases := by
  rw [Phrase.calls_eq {} phrases]
  simp

end

mutual

/-- A block adds the node it stands for, and nothing else. -/
theorem Block.call_eq (page : Flow) : ∀ block : Block, block.call page = page.push block.toNode
  | .code _ _ | .rule | .node _ => by
    rw [Block.call, Block.toNode]
  | .heading _ phrases | .paragraph phrases => by
    rw [Block.call, Flow.holding, Phrase.nodes_calls, Block.toNode]
  | .quote blocks => by
    rw [Block.call, Flow.quote, Block.nodes_calls, Block.toNode]
  | .bullets entries => by
    rw [Block.call, Flow.bullets, Entry.calls_eq _ entries, Block.toNode]
    simp [Listing.finish]
  | .numbered start entries => by
    rw [Block.call, Flow.numbered, Entry.calls_eq _ entries, Block.toNode]
    simp [Listing.finish]

/-- Blocks add the nodes they stand for, in their order, behind what is there. -/
theorem Block.calls_eq (page : Flow) :
    ∀ blocks : List Block, Block.calls blocks page = ⟨page.nodes ++ Block.toNodes blocks⟩
  | [] => by simp [Block.calls, Block.toNodes]
  | block :: rest => by
    rw [Block.calls, Block.call_eq page block, Block.calls_eq _ rest, Block.toNodes]
    simp [Flow.push]

/-- What blocks leave on a fresh page. -/
theorem Block.nodes_calls (blocks : List Block) :
    (Block.calls blocks {}).nodes.toList = Block.toNodes blocks := by
  rw [Block.calls_eq {} blocks]
  simp

/-- An entry adds the item it stands for, and nothing else. -/
theorem Entry.call_eq (page : Listing) : ∀ entry : Entry, entry.call page = page.push entry.toNode
  | .line _ phrases => by
    rw [Entry.call, Listing.line, Phrase.nodes_calls, Entry.toNode]
  | .blocks blocks => by
    rw [Entry.call, Listing.blocks, Block.nodes_calls, Entry.toNode]

/-- Entries add the items they stand for, in their order, and leave the marks of the list alone. -/
theorem Entry.calls_eq (page : Listing) : ∀ entries : List Entry,
    Entry.calls entries page = { page with items := page.items ++ Entry.toNodes entries }
  | [] => by simp [Entry.calls, Entry.toNodes]
  | entry :: rest => by
    rw [Entry.calls, Entry.call_eq page entry, Entry.calls_eq _ rest, Entry.toNodes]
    simp [Listing.push]

end

/-- A document is a root over the nodes of its blocks, side by side. -/
theorem document_eq (blocks : List Block) : document blocks = .root (blocks.map Block.toNode) := by
  rw [document, Block.nodes_calls, Block.toNodes_eq_map]

/-! ## The content model -/

mutual

/-- Whether a phrase holds no finished node. -/
def Phrase.isPlain : Phrase → Bool
  | .emphasis phrases | .strong phrases | .strike phrases | .link _ phrases =>
    Phrase.arePlain phrases
  | .node _ => false
  | .text _ | .code _ | .image _ _ | .lineBreak => true

/-- Whether no phrase of a run holds a finished node. -/
def Phrase.arePlain : List Phrase → Bool
  | [] => true
  | phrase :: rest => phrase.isPlain && Phrase.arePlain rest

end

mutual

/-- Whether a block holds no finished node, and no heading with a depth out of range. -/
def Block.isPlain : Block → Bool
  | .heading depth phrases => decide (1 ≤ depth ∧ depth ≤ 6) && Phrase.arePlain phrases
  | .paragraph phrases => Phrase.arePlain phrases
  | .quote blocks => Block.arePlain blocks
  | .bullets entries | .numbered _ entries => Entry.arePlain entries
  | .node _ => false
  | .code _ _ | .rule => true

/-- Whether a run of blocks holds no finished node, and no heading with a depth out of range. -/
def Block.arePlain : List Block → Bool
  | [] => true
  | block :: rest => block.isPlain && Block.arePlain rest

/-- Whether an entry holds no finished node, and no heading with a depth out of range. -/
def Entry.isPlain : Entry → Bool
  | .line _ phrases => Phrase.arePlain phrases
  | .blocks blocks => Block.arePlain blocks

/-- Whether the entries of a list hold no finished node, and no heading with a depth out of
range. -/
def Entry.arePlain : List Entry → Bool
  | [] => true
  | entry :: rest => entry.isPlain && Entry.arePlain rest

end

open Node (Proper proper_of_leaf everywhere_properHere)

mutual

/-- A plain phrase stands for a node that may be among phrases. -/
theorem Phrase.proper_toNode :
    ∀ phrase : Phrase, phrase.isPlain = true → Proper .phrase phrase.toNode
  | .text _, _ | .code _, _ | .image _ _, _ => proper_of_leaf rfl rfl trivial trivial
  | .lineBreak, _ => proper_of_leaf rfl rfl trivial rfl
  | .emphasis phrases, h | .strong phrases, h | .strike phrases, h | .link _ phrases, h =>
    ⟨rfl, everywhere_properHere rfl trivial trivial (Phrase.proper_toNodes phrases h)⟩

theorem Phrase.proper_toNodes : ∀ phrases : List Phrase, Phrase.arePlain phrases = true →
    ∀ made ∈ Phrase.toNodes phrases, Proper .phrase made
  | [], _ => List.forall_mem_nil _
  | phrase :: rest, h => by
    obtain ⟨hphrase, hrest⟩ := Bool.and_eq_true_iff.mp h
    exact List.forall_mem_cons.mpr
      ⟨Phrase.proper_toNode phrase hphrase, Phrase.proper_toNodes rest hrest⟩

end

/-- The paragraph of plain phrases. -/
theorem Phrase.proper_paragraph {phrases : List Phrase} (h : Phrase.arePlain phrases = true) :
    Proper .block (.paragraph (Phrase.toNodes phrases)) :=
  ⟨rfl, everywhere_properHere rfl trivial trivial (Phrase.proper_toNodes phrases h)⟩

mutual

/-- A plain block stands for a node that may be among blocks. -/
theorem Block.proper_toNode :
    ∀ block : Block, block.isPlain = true → Proper .block block.toNode
  | .heading depth phrases, h => by
    obtain ⟨hdepth, hphrases⟩ := Bool.and_eq_true_iff.mp h
    have hrange : 1 ≤ depth ∧ depth ≤ 6 := of_decide_eq_true hdepth
    exact ⟨rfl, everywhere_properHere rfl trivial hrange (Phrase.proper_toNodes phrases hphrases)⟩
  | .paragraph _, h => Phrase.proper_paragraph h
  | .code _ _, _ => proper_of_leaf rfl rfl trivial trivial
  | .rule, _ => proper_of_leaf rfl rfl trivial rfl
  | .quote blocks, h =>
    ⟨rfl, everywhere_properHere rfl trivial trivial (Block.proper_toNodes blocks h)⟩
  | .bullets entries, h | .numbered _ entries, h =>
    ⟨rfl, everywhere_properHere rfl rfl trivial (Entry.proper_toNodes entries h)⟩

theorem Block.proper_toNodes : ∀ blocks : List Block, Block.arePlain blocks = true →
    ∀ made ∈ Block.toNodes blocks, Proper .block made
  | [], _ => List.forall_mem_nil _
  | block :: rest, h => by
    obtain ⟨hblock, hrest⟩ := Bool.and_eq_true_iff.mp h
    exact List.forall_mem_cons.mpr
      ⟨Block.proper_toNode block hblock, Block.proper_toNodes rest hrest⟩

/-- A plain entry stands for a node that may be in a list. -/
theorem Entry.proper_toNode :
    ∀ entry : Entry, entry.isPlain = true → Proper .entry entry.toNode
  | .line task phrases, h => by
    refine ⟨rfl, everywhere_properHere rfl trivial trivial fun made hmade => ?_⟩
    rw [List.mem_singleton.mp hmade]
    exact Phrase.proper_paragraph h
  | .blocks blocks, h =>
    ⟨rfl, everywhere_properHere rfl trivial trivial (Block.proper_toNodes blocks h)⟩

theorem Entry.proper_toNodes : ∀ entries : List Entry, Entry.arePlain entries = true →
    ∀ made ∈ Entry.toNodes entries, Proper .entry made
  | [], _ => List.forall_mem_nil _
  | entry :: rest, h => by
    obtain ⟨hentry, hrest⟩ := Bool.and_eq_true_iff.mp h
    exact List.forall_mem_cons.mpr
      ⟨Entry.proper_toNode entry hentry, Entry.proper_toNodes rest hrest⟩

end

theorem everywhere_document {blocks : List Block} (h : Block.arePlain blocks = true) :
    (document blocks).Everywhere Node.ProperHere := by
  rw [document, Block.nodes_calls]
  exact everywhere_properHere rfl trivial trivial (Block.proper_toNodes blocks h)

/-- **What composing gives.** A document composed without finished nodes, with headings of depths
one to six only, follows the content model; it has one node for each block, in the order of the
blocks, and so have the nodes below it for what they are composed of; and it is read back from its
stored form as it is, as long as that never has more than 127 objects and arrays open at once. -/
theorem contentModel_document {blocks : List Block} (h : Block.arePlain blocks = true) :
    (document blocks).ContentModel
      ∧ document blocks = .root (blocks.map Block.toNode)
      ∧ (Json.mostOpen (document blocks).encode.toList ≤ 127 →
          Node.decode (document blocks).encode = .ok (document blocks)) := by
  have hproper := everywhere_document h
  refine ⟨Node.contentModel_of_everywhere hproper, document_eq blocks, fun hopen => ?_⟩
  have hstorable : (document blocks).Storable := fun node hnode => (hproper node hnode).storable
  rw [Node.mostOpen_encode] at hopen
  rw [Node.decode_encode_of_storable hstorable]
  exact Node.limited_eq_ok.mpr hopen

/-- Release notes with every kind of list in them. -/
def releaseNotes : List Block :=
  [.title [.text "Patch notes"],
    .paragraph [.text "This is ", .strong [.text "bold", .emphasis [.code "x"]], .lineBreak,
      .link "https://example.com" [.image "https://example.com/a.png" "a"]],
    .bullets [.line none [.text "First item"], .line (some true) [.strike [.text "Done"]],
      .blocks [.paragraph [.text "outer"], .counted [.line none [.text "inner"]]]],
    .numbered 3 [.blocks [.subtitle [], .rule, .code "let x" (some "rust"), .code "" none]],
    .quote [.heading 6 [.text "Sixth"], .quote []]]

theorem contentModel_document_releaseNotes :
    Block.arePlain releaseNotes = true
      ∧ Json.mostOpen (document releaseNotes).encode.toList ≤ 127
      ∧ (document releaseNotes).ContentModel
      ∧ document releaseNotes = .root (releaseNotes.map Block.toNode)
      ∧ Node.decode (document releaseNotes).encode = .ok (document releaseNotes) := by
  have hplain : Block.arePlain releaseNotes = true := by decide
  have hopen : Json.mostOpen (document releaseNotes).encode.toList ≤ 127 := by
    rw [Node.mostOpen_encode]
    decide
  obtain ⟨hmodel, hmade, hread⟩ := contentModel_document hplain
  exact ⟨hplain, hopen, hmodel, hmade, hread hopen⟩

end Bracketdown.Compose
