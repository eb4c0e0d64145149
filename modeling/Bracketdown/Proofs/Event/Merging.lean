import Bracketdown.Proofs.Event.Wrapping
import Bracketdown.Proofs.Link.Partition

/-!
# Texts side by side

A parser may deliver one text in many events, but a tree never shows it: texts that follow one
another are joined where nodes are put together, in the content of every tag and in every run of an
item. So no node that is read has two texts side by side among its children, however badly the
events are nested (`mergedHere_treeOf`). Linking cuts texts again, but only in front of a link and
behind one, and it puts nothing but links between the parts; what stood between two texts before is
no text afterwards either.

Reading in parts shows the same. Well nested events are read alike whatever comes behind them, so
their nodes are followed by those of the rest, and nothing happens at the border but that two texts
that meet there are joined (`ofEvents_append_eq`).
-/

namespace Bracketdown

namespace Node

/-! ## Nodes without two texts side by side -/

/-- No two texts stand side by side among the children of a node. -/
def MergedHere (node : Node) : Prop := node.children.IsChain Apart

/-- Where there is no text at all, no two are side by side. -/
theorem isChain_apart_of_ne_text {nodes : List Node}
    (h : ∀ node ∈ nodes, ∀ value, node ≠ .text value) : nodes.IsChain Apart :=
  (List.pairwise_of_forall_mem_list fun first hfirst _ _ => .inl (h first hfirst)).isChain

theorem mergedHere_paragraph_joinTexts (nodes : List Node) :
    (Node.paragraph (joinTexts nodes)).MergedHere := isChain_joinTexts nodes

end Node

open Node (MergedHere Apart)

/-- Every tag joins the texts inside it or keeps none of them among its children. -/
theorem Tag.mergedHere_node (tag : Tag) (inside : List Event) :
    (tag.node inside (tag.content (Piece.ofEvents inside))).MergedHere := by
  have hjoined := Node.isChain_joinTexts ((Piece.ofEvents inside).map Piece.node)
  cases tag with
  | codeBlock | htmlBlock | image | metadata => exact List.isChain_nil
  | item =>
    exact Node.isChain_apart_of_ne_text fun _ hchild => Node.ne_text_of_mem_blocksOfEvents hchild
  | _ => exact hjoined

theorem Event.mergedHere_leaf? {event : Event} {node : Node} (h : event.leaf? = some node) :
    node.MergedHere := by
  unfold MergedHere
  rw [Event.children_leaf? h]
  exact List.isChain_nil

namespace Node

theorem everywhere_mergedHere (events : List Event) :
    (Node.root (ofEvents events)).Everywhere MergedHere := by
  have hpieces := Piece.everywhere_ofEvents (P := MergedHere) (fun _ => List.isChain_nil)
    mergedHere_paragraph_joinTexts (fun _ _ => Event.mergedHere_leaf?)
    (fun tag inside _ => tag.mergedHere_node inside) events List.infix_rfl
  refine everywhere_iff.mpr ⟨isChain_joinTexts _, ?_⟩
  exact Tag.everywhere_content (fun _ => List.isChain_nil) mergedHere_paragraph_joinTexts
    .paragraph hpieces

/-! ### Linking -/

theorem isChain_splitText (value : String) : (splitText value).IsChain Apart := by
  refine List.isChain_iff_forall_rel_of_append_cons_cons.mpr fun {first second} before behind h => ?_
  rcases text_or_ne first with ⟨a, rfl⟩ | hfirst
  · rcases text_or_ne second with ⟨b, rfl⟩ | hsecond
    · exact absurd h (apart_splitText value before a b behind)
    · exact .inr hsecond
  · exact .inl hfirst

/-- Linking turns no other node into a text. -/
theorem linkLiterals_ne_text {node : Node} (h : ∀ value, node ≠ .text value) (value : String) :
    node.linkLiterals ≠ .text value := by
  rcases text_or_kept_or_around node with ⟨old, rfl⟩ | hkept | ⟨shell, cs, hshell, rfl⟩
  · exact absurd rfl (h old)
  · rw [linkLiterals_of_isKept hkept]
    exact h value
  · rw [linkLiterals_around hshell]
    cases shell <;> exact nofun

/-- What was no text in front of others still is none. -/
theorem head?_linkAll_ne_text {nodes : List Node}
    (h : ∀ node ∈ nodes.head?, ∀ value, node ≠ .text value) :
    ∀ node ∈ (linkAll nodes).head?, ∀ value, node ≠ .text value := by
  cases nodes with
  | nil => exact nofun
  | cons node nodes =>
    have hnode := h node rfl
    rw [linkAll_of_ne_text hnode]
    intro first hfirst
    cases hfirst
    exact linkLiterals_ne_text hnode

/-- **Linking puts no two texts side by side.** -/
theorem isChain_linkAll {nodes : List Node} (h : nodes.IsChain Apart) :
    (linkAll nodes).IsChain Apart := by
  induction nodes with
  | nil => exact List.isChain_nil
  | cons node nodes ih =>
    obtain ⟨hhead, htail⟩ := List.isChain_cons.mp h
    rcases text_or_ne node with ⟨value, rfl⟩ | hne
    · -- What stands behind the text is no text, so the last part of the text may stand before it.
      have hbehind := head?_linkAll_ne_text fun next hnext =>
        (hhead next hnext).resolve_left fun hvalue => hvalue value rfl
      rw [linkAll]
      exact List.isChain_append.mpr ⟨isChain_splitText value, ih htail,
        fun _ _ next hnext => .inr (hbehind next hnext)⟩
    · rw [linkAll_of_ne_text hne]
      exact List.isChain_cons.mpr ⟨fun _ _ => .inl (linkLiterals_ne_text hne), ih htail⟩

theorem mergedHere_of_isCut {node : Node} (h : IsCut node) : node.MergedHere := by
  cases h with
  | text value => exact List.isChain_nil
  | link url value => exact List.isChain_singleton _

theorem MergedHere.linkLiterals {node : Node} (h : node.MergedHere) :
    node.linkLiterals.MergedHere := by
  rcases text_or_kept_or_around node with ⟨value, rfl⟩ | hkept | ⟨shell, cs, hshell, rfl⟩
  · exact h
  · rw [linkLiterals_of_isKept hkept]
    exact h
  · unfold MergedHere at h ⊢
    rw [children_around] at h
    rw [linkLiterals_around hshell, children_around]
    exact isChain_linkAll h

theorem Everywhere.mergedHere_linkLiterals {tree : Node} (h : tree.Everywhere MergedHere) :
    tree.linkLiterals.Everywhere MergedHere := by
  intro node hnode
  rcases mem_preorder_linkLiterals hnode with hcut | ⟨old, hold, rfl | rfl⟩
  · exact mergedHere_of_isCut hcut
  · exact h _ hold
  · exact (h old hold).linkLiterals

end Node

/-- **Texts are always merged.** Whatever the events and the options are, no node of the tree has
two texts side by side among its children, neither before its addresses are linked nor
afterwards. -/
theorem Markdown.mergedHere_treeOf (options : Options) (events : List Event) :
    (Node.root (Node.ofEvents events)).Everywhere MergedHere
      ∧ (treeOf options events).Everywhere MergedHere := by
  have hroot := Node.everywhere_mergedHere events
  refine ⟨hroot, ?_⟩
  unfold treeOf
  dsimp only
  split
  · exact hroot.mergedHere_linkLiterals
  · exact hroot

namespace Node

/-! ## Reading in parts -/

/-- Nodes, and others behind them: if the last of the first and the first of the others are texts,
they are joined. -/
def joinSeam (nodes behind : List Node) : List Node :=
  match nodes.getLast?, behind with
  | some (.text a), .text b :: rest => nodes.dropLast ++ .text (a ++ b) :: rest
  | _, _ => nodes ++ behind

theorem joinSeam_nil (behind : List Node) : joinSeam [] behind = behind := rfl

theorem joinSeam_concat (nodes : List Node) (last : Node) (behind : List Node) :
    joinSeam (nodes ++ [last]) behind = nodes ++ consJoined last behind := by
  unfold joinSeam
  rw [List.getLast?_concat, List.dropLast_concat]
  cases behind with
  | nil =>
    rw [consJoined_nil]
    cases last <;> exact List.append_nil _
  | cons next behind =>
    rcases text_or_ne last with ⟨a, rfl⟩ | hlast
    · rcases text_or_ne next with ⟨b, rfl⟩ | hnext
      · rfl
      · rw [consJoined_onto_ne_text hnext]
        split
        next heq => exact absurd (List.cons.inj heq).1 (hnext _)
        · exact List.append_assoc ..
    · rw [consJoined_of_ne_text hlast]
      split
      next heq _ => exact absurd (Option.some.inj heq) (hlast _)
      · exact List.append_assoc ..

/-- A node in front of two parts is joined onto the first, or onto the second if there is no
first. -/
theorem consJoined_joinSeam (first : Node) (nodes behind : List Node) :
    consJoined first (joinSeam nodes behind) = joinSeam (consJoined first nodes) behind := by
  have hsingle : ∀ node, joinSeam [node] behind = consJoined node behind := fun node =>
    joinSeam_concat [] node behind
  rcases List.eq_nil_or_concat nodes with rfl | ⟨init, last, rfl⟩
  · rw [joinSeam_nil, consJoined_nil, hsingle]
  rw [List.concat_eq_append, joinSeam_concat]
  cases init with
  | nil =>
    rw [List.nil_append, List.nil_append]
    rcases text_or_ne first with ⟨a, rfl⟩ | hfirst
    · rcases text_or_ne last with ⟨b, rfl⟩ | hlast
      · rw [consJoined_text_text]
        exact (hsingle _).symm
      · rw [consJoined_of_ne_text hlast, consJoined_onto_ne_text hlast,
          consJoined_onto_ne_text hlast]
        exact ((joinSeam_concat [.text a] last behind).trans
          (congrArg _ (consJoined_of_ne_text hlast behind))).symm
    · rw [consJoined_of_ne_text hfirst, consJoined_of_ne_text hfirst]
      exact (joinSeam_concat [first] last behind).symm
  | cons second init =>
    rw [List.cons_append, List.cons_append, consJoined_cons, consJoined_cons first second (_ ++ _),
      ← List.append_assoc, ← List.append_assoc, joinSeam_concat]

/-- Joining the texts of two lists is joining those of each, and the two that meet. -/
theorem joinTexts_append (nodes behind : List Node) :
    joinTexts (nodes ++ behind) = joinSeam (joinTexts nodes) (joinTexts behind) := by
  induction nodes with
  | nil => rfl
  | cons node nodes ih =>
    rw [List.cons_append, joinTexts, ih, joinTexts]
    exact consJoined_joinSeam node (joinTexts nodes) (joinTexts behind)

/-- **Well nested events are read independently of what follows**, be that well nested or not. -/
theorem ofEvents_append_eq {events : List Event} (h : Event.wellNested events = true)
    (behind : List Event) :
    ofEvents (events ++ behind) = joinSeam (ofEvents events) (ofEvents behind) := by
  unfold ofEvents
  rw [Piece.ofEvents_append (Event.wellNested_iff.mp h), List.map_append, joinTexts_append]

/-- A paragraph and the start of a text, with the rest of the text, a stray end and a tag that
nothing closes behind them. -/
theorem ofEvents_append_eq_stray :
    let events := [Event.start .paragraph, .code "c", .stop .paragraph, .text "a"]
    let behind := [Event.text "b", .stop .paragraph, .start .emphasis, .text "c", .rule]
    Event.wellNested events = true ∧ Event.wellNested behind = false
      ∧ ofEvents (events ++ behind) = joinSeam (ofEvents events) (ofEvents behind) :=
  ⟨by decide, by decide, ofEvents_append_eq (by decide) _⟩

end Node

end Bracketdown
