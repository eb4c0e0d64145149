import Bracketdown.Proofs.Event.Shape
import Bracketdown.Proofs.Node.RoundTrip
import Bracketdown.Proofs.Text.Utf8

/-!
# Going through the stored form

A document can be converted in one step, or its tree can be printed first and the printed text
converted then. The two give the same markup. Four parts of the program have to agree for that: the
reader builds only trees that may be stored (`everywhere_treeOf`), the indented text of such a tree
is read back as the tree whatever blanks stand in it and behind it (`document_spell`), the bytes of
a text are read as its characters (`glyphs_bytesOf`), and what is left is the same rendering.

The one way to fail is the decoder's limit on levels: a tree that is nested deeper can be printed,
but not read back. `result_printed` says that this happens exactly when the printed text has more
brackets open at once than the limit.
-/

namespace Bracketdown.CommandLine

open Json (mostOpen mostOpenFrom)
open Markdown (Options treeOf)

/-- The indented text of a storable tree, with a line end behind it, is read back as the tree. -/
theorem decodeBytes_printed {tree : Node} (h : tree.Storable) :
    Node.decodeBytes (bytesOf (tree.encodePretty ++ "\n"))
      = Decode.limited Decode.levelLimit tree := by
  have hgap : ∀ c ∈ ['\n'], Json.isGap c := by
    intro c hc
    obtain rfl := List.mem_singleton.mp hc
    exact .inr (.inr (.inl rfl))
  rw [Node.decodeBytes, Utf8.glyphs_bytesOf, String.toList_append, Node.encodePretty,
    String.toList_ofList, ← Json.spell_indented]
  exact Decode.document_spell .indented h ['\n'] hgap

/-- As many brackets are open at once in the indented text of a tree as the tree needs levels. -/
theorem mostOpen_encodePretty (tree : Node) :
    mostOpen tree.encodePretty.toList = Json.levels tree.toJson := by
  rw [Node.encodePretty, String.toList_ofList, ← Json.spell_indented, Json.mostOpen_spell]

/-- Converting what is printed for a storable tree. -/
theorem result_printed {tree : Node} (h : tree.Storable) (input : String)
    (output : Option String) (options : Options) :
    (Command.convert input output (some .tree) options).result
        (bytesOf (tree.encodePretty ++ "\n"))
      = if mostOpen tree.encodePretty.toList ≤ 127 then .ok (Markup.render tree)
        else .error (.tree (.fault .tooDeep)) := by
  show ((Node.decodeBytes _).mapError Failure.tree).map Markup.render = _
  rw [decodeBytes_printed h, mostOpen_encodePretty, Decode.limited]
  show _ = if Json.levels tree.toJson ≤ Decode.levelLimit then _ else _
  split <;> rfl

/-- **Storing a document on the way changes nothing.** For every list of events and all options, the
tree that is read keeps the rules of storable trees, and converting its printed form gives what
converting the tree gives, unless too many brackets are open at once in it. -/
theorem convert_printed_treeOf (options : Options) (events : List Event) :
    (∀ depth children, Node.heading depth children ∈ (treeOf options events).preorder →
      1 ≤ depth ∧ depth ≤ 6)
    ∧ (∀ kind value children,
        Node.other kind value children ∈ (treeOf options events).preorder →
        Kind.isDedicated kind = false ∧ (value = none ∨ children = none))
    ∧ (∀ ordered start children,
        Node.list ordered start children ∈ (treeOf options events).preorder →
        (ordered = true ↔ start.isSome))
    ∧ ∀ (input : String) (output : Option String) (options' : Options),
        (Command.convert input output (some .tree) options').result
            (bytesOf ((treeOf options events).encodePretty ++ "\n"))
          = if mostOpen (treeOf options events).encodePretty.toList ≤ 127 then
              .ok (Markup.render (treeOf options events))
            else .error (.tree (.fault .tooDeep)) := by
  have hread := Markdown.everywhere_treeOf options events
  have hstorable : (treeOf options events).Storable :=
    fun node hnode => .of_readHere (hread node hnode)
  refine ⟨fun depth children hnode => hread _ hnode, fun kind value children hnode => hread _ hnode,
    fun ordered start children hnode => ?_, result_printed hstorable⟩
  have hlist : ordered = start.isSome := hread _ hnode
  rw [hlist]

/-- A line end behind it does not change how many brackets are open at once in the indented text of
a tree. -/
theorem mostOpen_printed (tree : Node) :
    mostOpen (tree.encodePretty ++ "\n").toList = mostOpen tree.encodePretty.toList := by
  rw [mostOpen_encodePretty, String.toList_append, Node.encodePretty, String.toList_ofList,
    ← Json.spell_indented, mostOpen, Json.mostOpenFrom_spell]
  show max (0 + Json.levels tree.toJson) 0 = _
  omega

/-- The same for the commands: what `tree` prints for a document is converted as the document
itself. -/
theorem result_convert_tree {bytes : List UInt8} {printed : String} {input : String}
    {options : Options} (h : (Command.tree input options).result bytes = .ok printed)
    (input' : String) (output output' : Option String) (options' : Options) :
    (Command.convert input' output' (some .tree) options').result (bytesOf printed)
      = if mostOpen printed.toList ≤ 127 then
          (Command.convert input output (some .markdown) options).result bytes
        else .error (.tree (.fault .tooDeep)) := by
  show _ = if _ then ((Markdown.parseBytes options bytes).mapError Failure.encoding).map _ else _
  change ((Markdown.parseBytes options bytes).mapError Failure.encoding).map _ = _ at h
  unfold Markdown.parseBytes at h ⊢
  cases hsource : Utf8.decode bytes with
  | error fault =>
    rw [hsource] at h
    cases h
  | ok source =>
    rw [hsource] at h
    cases h
    have hstorable : (treeOf options (Markdown.events options source)).Storable :=
      fun node hnode => .of_readHere (Markdown.everywhere_treeOf options _ node hnode)
    rw [mostOpen_printed, result_printed hstorable]
    rfl

end Bracketdown.CommandLine
