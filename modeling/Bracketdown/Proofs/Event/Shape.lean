import Bracketdown.Markdown.Document
import Bracketdown.Proofs.Node.Storable

/-!
# What the reader never builds

A tree can be stored, and a stored text can be taken for it, only if its nodes keep some rules:
depths of headings are in range, no node borrows a kind that has a constructor of its own, a list
has a start exactly when it is ordered, and a node of another kind has a value or children but not
both. The reader keeps all of them (`everywhere_treeOf`), for every list of events: no tag makes a
node that breaks one, whatever is inside it, so it does not matter which events a start is matched
with. Joining texts, wrapping runs and linking addresses only make texts, paragraphs and links.
-/

namespace Bracketdown

namespace Node

/-- What holds of a node that the reader makes. -/
def ReadHere : Node → Prop
  | .heading depth _ => 1 ≤ depth ∧ depth ≤ 6
  | .list ordered start _ => ordered = start.isSome
  | .other kind value children => Kind.isDedicated kind = false ∧ (value = none ∨ children = none)
  | _ => True

/-- What the reader makes may be stored. -/
theorem StorableHere.of_readHere {node : Node} (h : node.ReadHere) : node.StorableHere := by
  cases node with
  | heading depth children => exact h
  | other kind value children => exact h.1
  | _ => trivial

/-! ## Joining and wrapping -/

theorem everywhere_consJoined {P : Node → Prop} (htext : ∀ s, P (.text s)) {node : Node}
    {nodes : List Node} (hnode : node.Everywhere P) (hnodes : ∀ n ∈ nodes, n.Everywhere P) :
    ∀ n ∈ consJoined node nodes, n.Everywhere P := by
  unfold consJoined
  split
  next a b rest =>
    intro n hn
    rcases List.mem_cons.mp hn with rfl | hn
    · exact everywhere_of_leaf (htext _) rfl
    · exact hnodes n (List.mem_cons_of_mem _ hn)
  · intro n hn
    rcases List.mem_cons.mp hn with rfl | hn
    · exact hnode
    · exact hnodes n hn

theorem everywhere_joinTexts {P : Node → Prop} (htext : ∀ s, P (.text s)) {nodes : List Node}
    (hnodes : ∀ n ∈ nodes, n.Everywhere P) : ∀ n ∈ joinTexts nodes, n.Everywhere P := by
  induction nodes with
  | nil => exact hnodes
  | cons node nodes ih =>
    exact everywhere_consJoined htext (hnodes node (List.mem_cons_self ..))
      (ih fun n hn => hnodes n (List.mem_cons_of_mem _ hn))

theorem everywhere_wrapRun {P : Node → Prop} (htext : ∀ s, P (.text s))
    (hparagraph : ∀ cs, P (.paragraph (joinTexts cs))) {run : List Node}
    (hrun : ∀ n ∈ run, n.Everywhere P) : ∀ n ∈ wrapRun run, n.Everywhere P := by
  unfold wrapRun
  split
  · exact fun n hn => absurd hn List.not_mem_nil
  · intro n hn
    obtain rfl := List.mem_singleton.mp hn
    exact everywhere_iff.mpr ⟨hparagraph _, everywhere_joinTexts htext hrun⟩

theorem everywhere_wrapRuns {P : Node → Prop} (htext : ∀ s, P (.text s))
    (hparagraph : ∀ cs, P (.paragraph (joinTexts cs))) (pieces : List Piece) {run : List Node}
    (hrun : ∀ n ∈ run, n.Everywhere P) (hpieces : ∀ p ∈ pieces, p.node.Everywhere P) :
    ∀ n ∈ wrapRuns run pieces, n.Everywhere P := by
  induction pieces generalizing run with
  | nil => exact everywhere_wrapRun htext hparagraph fun n hn => hrun n (List.mem_reverse.mp hn)
  | cons piece pieces ih =>
    obtain ⟨isBlock, node⟩ := piece
    have hnode : node.Everywhere P := hpieces ⟨isBlock, node⟩ (List.mem_cons_self ..)
    have hrest : ∀ p ∈ pieces, p.node.Everywhere P :=
      fun p hp => hpieces p (List.mem_cons_of_mem _ hp)
    cases isBlock with
    | true =>
      intro n hn
      rcases List.mem_append.mp hn with hn | hn
      · exact everywhere_wrapRun htext hparagraph
          (fun n hn => hrun n (List.mem_reverse.mp hn)) n hn
      · rcases List.mem_cons.mp hn with rfl | hn
        · exact hnode
        · exact ih (fun n hn => absurd hn List.not_mem_nil) hrest n hn
    | false =>
      refine ih (fun n hn => ?_) hrest
      rcases List.mem_cons.mp hn with rfl | hn
      · exact hnode
      · exact hrun n hn

end Node

/-! ## Tags and events -/

open Node (Everywhere ReadHere everywhere_iff everywhere_of_leaf)

/-- A tag that has children has its content for children. -/
theorem Tag.mem_of_mem_children_node {tag : Tag} {inside : List Event} {nodes : List Node}
    {child : Node} (h : child ∈ (tag.node inside nodes).children) : child ∈ nodes := by
  cases tag with
  | codeBlock | htmlBlock | image | metadata => exact absurd h List.not_mem_nil
  | _ => exact h

theorem Event.children_leaf? {event : Event} {node : Node} (h : event.leaf? = some node) :
    node.children = [] := by
  cases event with
  | start | stop | taskMarker => cases h
  | _ =>
    cases h
    rfl

section Reading

variable {P : Node → Prop} (htext : ∀ s, P (.text s))
  (hparagraph : ∀ cs, P (.paragraph (Node.joinTexts cs)))

include htext hparagraph

theorem Tag.everywhere_content (tag : Tag) {pieces : List Piece}
    (h : ∀ p ∈ pieces, p.node.Everywhere P) : ∀ n ∈ tag.content pieces, n.Everywhere P := by
  have hjoined : ∀ n ∈ Node.joinTexts (pieces.map Piece.node), n.Everywhere P := by
    refine Node.everywhere_joinTexts htext fun n hn => ?_
    obtain ⟨p, hp, rfl⟩ := List.mem_map.mp hn
    exact h p hp
  cases tag with
  | item =>
    exact Node.everywhere_wrapRuns htext hparagraph pieces
      (fun n hn => absurd hn List.not_mem_nil) h
  | _ => exact hjoined

/-- What holds of the node of every event, and of the node of every tag around events that stand in
a row in a list, holds of every node that the list makes, however it is nested. -/
theorem Piece.everywhere_ofEvents {whole : List Event}
    (hleaf : ∀ (event : Event) (node : Node), event.leaf? = some node → P node)
    (htag : ∀ (tag : Tag) (inside : List Event), inside <:+: whole →
      P (tag.node inside (tag.content (ofEvents inside))))
    (events : List Event) (h : events <:+: whole) :
    ∀ p ∈ ofEvents events, p.node.Everywhere P := by
  fun_induction ofEvents events with
  | case1 => exact fun p hp => absurd hp List.not_mem_nil
  | case2 tag events i inside ihinside ihbehind =>
    have htail : events <:+: whole := (List.suffix_cons _ events).isInfix.trans h
    have hinside : inside <:+: whole := (List.take_prefix i events).isInfix.trans htail
    have hbehind : events.drop (i + 1) <:+: whole :=
      (List.drop_suffix (i + 1) events).isInfix.trans htail
    intro p hp
    rcases List.mem_cons.mp hp with rfl | hp
    · have hcontent := tag.everywhere_content htext hparagraph (ihinside hinside)
      exact everywhere_iff.mpr ⟨htag tag inside hinside, fun child hchild =>
        hcontent child (Tag.mem_of_mem_children_node hchild)⟩
    · exact ihbehind hbehind p hp
  | case3 event events hne node hleaf' ih =>
    intro p hp
    rcases List.mem_cons.mp hp with rfl | hp
    · exact everywhere_of_leaf (hleaf event node hleaf') (Event.children_leaf? hleaf')
    · exact ih ((List.suffix_cons _ events).isInfix.trans h) p hp
  | case4 event events hne hleaf' ih => exact ih ((List.suffix_cons _ events).isInfix.trans h)

end Reading

/-- No tag makes a node that breaks a rule. -/
theorem Tag.readHere_node (tag : Tag) (inside : List Event) (nodes : List Node) :
    (tag.node inside nodes).ReadHere := by
  cases tag with
  | heading level => cases level <;> exact ⟨by decide, by decide⟩
  | list start => rfl
  | htmlBlock => exact ⟨by decide, .inr rfl⟩
  | metadata language => cases language <;> exact ⟨by decide, .inr rfl⟩
  | footnoteDefinition | definitionList | definitionListTitle | definitionListDefinition | table
  | tableHead | tableRow | tableCell => exact ⟨by decide, .inl rfl⟩
  | _ => trivial

theorem Event.readHere_leaf? {event : Event} {node : Node} (h : event.leaf? = some node) :
    node.ReadHere := by
  cases event with
  | start | stop | taskMarker => cases h
  | text | code | softBreak =>
    cases h
    trivial
  | html | inlineHtml | inlineMath | displayMath | footnoteReference | hardBreak | rule =>
    cases h
    exact ⟨by decide, .inr rfl⟩

/-- Every node that events make keeps the rules, however they are nested. -/
theorem Node.everywhere_ofEvents (events : List Event) :
    ∀ n ∈ Node.ofEvents events, n.Everywhere ReadHere := by
  have hpieces := Piece.everywhere_ofEvents (P := ReadHere) (fun _ => trivial) (fun _ => trivial)
    (fun _ _ => Event.readHere_leaf?) (fun tag inside _ => tag.readHere_node inside _) events
    List.infix_rfl
  exact Tag.everywhere_content (fun _ => trivial) (fun _ => trivial) .paragraph hpieces

/-! ## Linking -/

/-- What linking puts in the place of a text is texts, and links around texts. -/
theorem Node.everywhere_splitText {value : String} :
    ∀ n ∈ Node.splitText value, n.Everywhere ReadHere := by
  intro n hn
  obtain ⟨segment, -, rfl⟩ := List.mem_map.mp hn
  cases segment with
  | plain text => exact everywhere_of_leaf trivial rfl
  | literal url text =>
    refine everywhere_iff.mpr ⟨trivial, fun child hchild => ?_⟩
    obtain rfl := List.mem_singleton.mp hchild
    exact everywhere_of_leaf trivial rfl

theorem Node.everywhere_linkAll {nodes : List Node}
    (h : ∀ n ∈ nodes, n.linkLiterals.Everywhere ReadHere) :
    ∀ n ∈ Node.linkAll nodes, n.Everywhere ReadHere := by
  induction nodes with
  | nil => exact fun n hn => absurd hn List.not_mem_nil
  | cons node nodes ih =>
    have hrest := ih fun n hn => h n (List.mem_cons_of_mem _ hn)
    unfold Node.linkAll
    split
    next heq => cases heq
    next value rest heq =>
      cases heq
      intro n hn
      rcases List.mem_append.mp hn with hn | hn
      · exact Node.everywhere_splitText n hn
      · exact hrest n hn
    next heq =>
      cases heq
      intro n hn
      rcases List.mem_cons.mp hn with rfl | hn
      · exact h node (List.mem_cons_self ..)
      · exact hrest n hn

theorem Node.everywhere_linkLiterals (tree : Node) :
    tree.Everywhere ReadHere → tree.linkLiterals.Everywhere ReadHere := by
  induction tree using Node.childInduction with
  | step tree ih =>
    intro h
    obtain ⟨hhere, hchildren⟩ := everywhere_iff.mp h
    have hlinked : ∀ n ∈ Node.linkAll tree.children, n.Everywhere ReadHere :=
      Node.everywhere_linkAll fun child hchild => ih child hchild (hchildren child hchild)
    cases tree with
    | text | link | image | inlineCode | code => exact h
    | other kind value cs =>
      cases cs with
      | none => exact h
      | some cs =>
        -- With children there is no value, and linking leaves the value as it is.
        have hvalue : value = none := hhere.2.resolve_right fun hcs => by cases hcs
        exact everywhere_iff.mpr ⟨⟨hhere.1, .inl hvalue⟩, hlinked⟩
    | _ => exact everywhere_iff.mpr ⟨hhere, hlinked⟩

/-- **Every tree that is read keeps the rules**, whatever the events and the options. -/
theorem Markdown.everywhere_treeOf (options : Options) (events : List Event) :
    (treeOf options events).Everywhere ReadHere := by
  have hroot : (Node.root (Node.ofEvents events)).Everywhere ReadHere :=
    everywhere_iff.mpr ⟨trivial, Node.everywhere_ofEvents events⟩
  unfold treeOf
  dsimp only
  split
  · exact Node.everywhere_linkLiterals _ hroot
  · exact hroot

end Bracketdown
