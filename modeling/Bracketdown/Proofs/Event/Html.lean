import Bracketdown.Proofs.Event.Gathered

/-!
# What is kept of HTML

A block of HTML is delivered line by line, each as an event of its own. In front of a line that is
indented further than the block around it there is another event, a text with the blanks that are
left over. All of them become nodes first, and the value of the block is put together from the
values of these nodes. A text has no value of that sort, so the blanks are lost.

`htmls_treeOf` says which nodes of HTML a document has, and that the value of a block is the HTML
events in it, less one final line end. That is all that was delivered in the block if and only if
the texts in it are empty, with one exception: a line end that stands at the end of the block as a
text would have been dropped anyway. `htmls_indented_line` is a block that loses the indentation of
a line.
-/

namespace Bracketdown

/-- The value of a node of HTML. -/
def Node.html? : Node → Option String
  | .other kind value _ => if kind = Kind.html then value else none
  | _ => none

/-- The values of the nodes of HTML in a tree, in order. -/
def Node.htmls (tree : Node) : List String := tree.preorder.filterMap Node.html?

namespace Event

/-! ## The events of a block -/

/-- What those events deliver of which a test holds. -/
def sourceWhere (test : Event → Bool) (events : List Event) : String :=
  String.join ((events.filter test).map source)

/-- What is kept of a block of HTML with these events in it. -/
def keptHtml (inside : List Event) : String := lessFinalNewline (sourceWhere isHtml inside)

/-- What is read off the events as values of HTML: each block of HTML, and each event of HTML
outside of the tags whose content becomes a string. -/
def htmls (events : List Event) : List String :=
  gathered (fun tag inside => if tag = .htmlBlock then [keptHtml inside] else [])
    (fun event => if event.isHtml then [event.source] else []) [] events

/-- Whether events are HTML and texts. -/
def holdsHtml (events : List Event) : Bool := events.all fun event => event.isHtml || event.isText

section SourceWhere

variable {test : Event → Bool} {event : Event} {events : List Event}

theorem sourceWhere_cons_of_true (h : test event = true) :
    sourceWhere test (event :: events) = event.source ++ sourceWhere test events := by
  unfold sourceWhere
  rw [List.filter_cons_of_pos h, List.map_cons, String.join_cons]

theorem sourceWhere_cons_of_false (h : test event = false) :
    sourceWhere test (event :: events) = sourceWhere test events := by
  unfold sourceWhere
  rw [List.filter_cons_of_neg (by simp [h])]

/-- All is delivered where a test holds or where it fails. -/
theorem length_join_source (test : Event → Bool) (events : List Event) :
    (String.join (events.map source)).length
      = (sourceWhere test events).length + (sourceWhere (fun event => !test event) events).length := by
  induction events with
  | nil => rfl
  | cons event events ih =>
    rw [List.map_cons, String.join_cons, String.length_append, ih]
    cases htest : test event with
    | true =>
      rw [sourceWhere_cons_of_true htest, sourceWhere_cons_of_false (by simp [htest]),
        String.length_append]
      omega
    | false =>
      rw [sourceWhere_cons_of_false htest, sourceWhere_cons_of_true (by simp [htest]),
        String.length_append]
      omega

theorem sourceWhere_eq_join (h : sourceWhere (fun event => !test event) events = "") :
    sourceWhere test events = String.join (events.map source) := by
  induction events with
  | nil => rfl
  | cons event events ih =>
    rw [List.map_cons, String.join_cons]
    cases htest : test event with
    | true =>
      rw [sourceWhere_cons_of_false (by simp [htest])] at h
      rw [sourceWhere_cons_of_true htest, ih h]
    | false =>
      rw [sourceWhere_cons_of_true (by simp [htest]), String.append_eq_empty_iff] at h
      rw [sourceWhere_cons_of_false htest, ih h.2, h.1, String.empty_append]

/-- What does not fail a test is all that is delivered if nothing else is. -/
theorem sourceWhere_eq_join_iff :
    sourceWhere test events = String.join (events.map source)
      ↔ sourceWhere (fun event => !test event) events = "" := by
  constructor
  · intro h
    have hlength := length_join_source test events
    rw [h] at hlength
    exact String.length_eq_zero_iff.mp (by omega)
  · exact sourceWhere_eq_join

/-- What is no HTML in a block of HTML is text. -/
theorem sourceWhere_isText (h : holdsHtml events = true) :
    sourceWhere (fun event => !event.isHtml) events = sourceWhere isText events := by
  unfold sourceWhere
  congr 2
  apply List.filter_congr
  intro event hevent
  have hkind := List.all_eq_true.mp h event hevent
  cases event <;> first | rfl | cases hkind

end SourceWhere

/-! ## The line end at the end -/

theorem lessFinalNewline_cases (s : String) :
    (∃ r, s = r ++ "\n" ∧ lessFinalNewline s = r)
      ∨ s.toList.getLast? ≠ some '\n' ∧ lessFinalNewline s = s := by
  unfold lessFinalNewline
  by_cases hlast : s.toList.getLast? = some '\n'
  · refine .inl ⟨String.ofList s.toList.dropLast, ?_, if_pos hlast⟩
    have hsplit : s.toList = s.toList.dropLast ++ ['\n'] :=
      (List.dropLast_append_getLast? '\n' hlast).symm
    apply String.toList_inj.mp
    rw [String.toList_append, String.toList_ofList]
    exact hsplit
  · exact .inr ⟨hlast, if_neg hlast⟩

theorem getLast?_append_newline (r : String) : (r ++ "\n").toList.getLast? = some '\n' := by
  rw [String.toList_append]
  exact List.getLast?_concat

/-- Two texts differ in no more than the line end that is dropped if they are the same, or if only
the longer one ends with it. -/
theorem lessFinalNewline_eq_iff {s t : String} (h : s.length ≤ t.length) :
    lessFinalNewline s = lessFinalNewline t
      ↔ s = t ∨ (t = s ++ "\n" ∧ s.toList.getLast? ≠ some '\n') := by
  have hlength : ∀ r : String, (r ++ "\n").length = r.length + 1 := fun r => String.length_append r "\n"
  constructor
  · intro heq
    rcases lessFinalNewline_cases s with ⟨r, hs, hr⟩ | ⟨hlast, hs⟩
    · rcases lessFinalNewline_cases t with ⟨r', ht, hr'⟩ | ⟨-, ht⟩
      · rw [hr, hr'] at heq
        exact .inl (by rw [hs, ht, heq])
      · -- Then the shorter text would be longer by the line end.
        rw [hr, ht] at heq
        rw [hs, heq, hlength] at h
        omega
    · rcases lessFinalNewline_cases t with ⟨r', ht, hr'⟩ | ⟨-, ht⟩
      · rw [hs, hr'] at heq
        exact .inr ⟨by rw [ht, heq], hlast⟩
      · rw [hs, ht] at heq
        exact .inl heq
  · rintro (rfl | ⟨rfl, hlast⟩)
    · rfl
    · have hdrop : lessFinalNewline (s ++ "\n") = s := by
        unfold lessFinalNewline
        rw [if_pos (getLast?_append_newline s), String.toList_append]
        show String.ofList (s.toList ++ ['\n']).dropLast = s
        rw [List.dropLast_concat, String.ofList_toList]
      rw [hdrop, lessFinalNewline, if_neg hlast]

/-- **How much of a block of HTML is kept**: all of it, if and only if the texts in it are empty or
are the line end at its end. -/
theorem keptHtml_eq_iff {inside : List Event} (h : holdsHtml inside = true) :
    keptHtml inside = lessFinalNewline (String.join (inside.map source))
      ↔ sourceWhere isText inside = ""
        ∨ (String.join (inside.map source) = sourceWhere isHtml inside ++ "\n"
          ∧ (sourceWhere isHtml inside).toList.getLast? ≠ some '\n') := by
  have hle : (sourceWhere isHtml inside).length ≤ (String.join (inside.map source)).length := by
    have hlength := length_join_source isHtml inside
    omega
  unfold keptHtml
  rw [lessFinalNewline_eq_iff hle, sourceWhere_eq_join_iff, sourceWhere_isText h]

/-! ## The nodes of a block -/

/-- Of HTML and texts the values are the HTML. -/
theorem values_ofEvents {inside : List Event} (h : holdsHtml inside = true) :
    Node.values (Node.ofEvents inside) = sourceWhere isHtml inside := by
  rw [Node.ofEvents, Node.values_joinTexts, Node.values_eq]
  induction inside with
  | nil =>
    rw [Piece.ofEvents]
    rfl
  | cons event inside ih =>
    unfold holdsHtml at h
    rw [List.all_cons, Bool.and_eq_true] at h
    have hrest := ih h.2
    have hplain : event.isPlain = true := by
      cases event <;> first | rfl | cases h.1
    rw [Piece.map_node_ofEvents_cons hplain, List.map_append, String.join_append, hrest]
    cases event with
    | text value => exact String.empty_append.trans (sourceWhere_cons_of_false rfl).symm
    | html value | inlineHtml value =>
      rw [sourceWhere_cons_of_true rfl]
      rfl
    | _ => cases h.1

/-- A node of HTML comes from a block of HTML or from an event of HTML. -/
theorem gathers_htmls :
    Gathers (fun node => node.html?.toList)
      (fun tag inside => if tag = .htmlBlock
        then [dropFinalNewline (Node.values (Node.ofEvents inside))] else [])
      fun event => if event.isHtml then [event.source] else [] where
  text _ := rfl
  paragraph _ := rfl
  root _ := rfl
  literal _ _ := rfl
  around shell _ _ _ := by cases shell <;> rfl
  tag tag inside h := by
    cases tag with
    | metadata language => cases language <;> rfl
    | _ => rfl
  leaf event h := by
    cases event with
    | start => cases h
    | stop => cases h
    | _ => rfl

end Event

namespace Markdown

open Event (wellNested tags holdsHtml htmls keptHtml sourceWhere isHtml isText source
  lessFinalNewline)

/-- **What a document keeps of its HTML.** If its blocks of HTML hold HTML and texts, then the nodes
of HTML in the tree are these blocks and the events of HTML outside of them, and each block has for
its value the HTML in it, less one final line end. That is all that was delivered in the block, less
one final line end, if and only if the texts in it are empty or are that line end. -/
theorem htmls_treeOf (options : Options) {events : List Event} (h : wellNested events = true)
    (hblocks : ∀ inside, (.htmlBlock, inside) ∈ tags events → holdsHtml inside = true) :
    (treeOf options events).htmls = htmls events
      ∧ ∀ inside, (.htmlBlock, inside) ∈ tags events →
        (keptHtml inside = lessFinalNewline (String.join (inside.map source))
          ↔ sourceWhere isText inside = ""
            ∨ (String.join (inside.map source) = sourceWhere isHtml inside ++ "\n"
              ∧ (sourceWhere isHtml inside).toList.getLast? ≠ some '\n')) := by
  constructor
  · unfold Node.htmls htmls
    rw [List.filterMap_eq_flatMap_toList, Event.gathers_htmls.gathered_treeOf options h]
    apply Event.gathered_congr
    intro tag inside htag
    by_cases hhtml : tag = .htmlBlock
    · subst hhtml
      rw [if_pos rfl, if_pos rfl, Event.values_ofEvents (hblocks inside htag),
        Event.dropFinalNewline_eq, keptHtml]
    · rw [if_neg hhtml, if_neg hhtml]
  · intro inside hinside
    exact Event.keptHtml_eq_iff (hblocks inside hinside)

/-- A tag in a line of text, a block in an item, and HTML in a block of code. -/
theorem htmls_treeOf_item :
    let inside := [Event.html "<p>\n", .text "", .html "a\n"]
    let events := [Event.start (.list none), .start .item, .text "b", .inlineHtml "<i>",
      .start .htmlBlock] ++ inside ++ [.stop .htmlBlock, .stop .item, .stop .list,
      .start (.codeBlock none), .html "c", .stop .codeBlock]
    (treeOf {} events).htmls = ["<i>", "<p>\na"]
      ∧ keptHtml inside = lessFinalNewline (String.join (inside.map source)) := by
  intro inside events
  have hblocks : ∀ block ∈ tags events, block.1 = .htmlBlock → holdsHtml block.2 = true := by
    decide
  have hhtmls := @htmls_treeOf {} events (by decide) fun inside hmem => hblocks _ hmem rfl
  refine ⟨hhtmls.1.trans (by decide), (hhtmls.2 inside ?_).mpr (.inl (by decide))⟩
  decide

/-- The blanks in front of a line in a block of HTML, as a text of their own, are not in the value
of the block. -/
theorem htmls_indented_line :
    let inside := [Event.html "<div>\n", .text "  ", .html "foo\n"]
    let events := Event.start .htmlBlock :: (inside ++ [.stop .htmlBlock])
    wellNested events = true ∧ (.htmlBlock, inside) ∈ tags events ∧ holdsHtml inside = true
      ∧ lessFinalNewline (String.join (inside.map source)) = "<div>\n  foo"
      ∧ (treeOf {} events).htmls = ["<div>\nfoo"] := by
  refine ⟨by decide, by decide, by decide, by decide, ?_⟩
  decide +kernel

/-- They are delivered for a line that is indented further than the block, in an item. -/
example : events {} "- <div>\n\tfoo\n".toList
    = [.start (.list none), .start .item, .start .htmlBlock, .html "<div>\n", .text "  ",
      .html "foo\n", .stop .htmlBlock, .stop .item, .stop .list] := by
  decide +kernel

end Markdown

end Bracketdown
