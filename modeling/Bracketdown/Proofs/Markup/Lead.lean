import Bracketdown.Proofs.Markup.Context
import Bracketdown.Proofs.Markup.Dispatch

/-!
# What makes a quote a spoiler

The writer looks at the text that a quote has been rendered to: if an exclamation mark and a blank
stand in front, the quote is a spoiler. The two may come from one text or from two, out of
paragraphs and nodes without a constructor of their own, and there may be tags before, between and
behind them.

`text_blockquote` says the same without the rendered text. The lead of a list of nodes is what is
written for them in front of the first tag, and it is read off the nodes alone (`lead`): texts and
values are part of it, some nodes are walked through, and every node that is written with a tag ends
it. The lead decides, because what follows it starts with a bracket (`Leads`) and the mark has none,
so no tag can be a part of the mark.
-/

namespace Bracketdown.Markup

open Node (Context)

mutual

/-- What is written for a node in front of the first tag. If the node is written without a tag the
lead goes on behind it, with `behind`. -/
def leadOf (behind : String) : Node → String
  | .root [] => behind
  | .root (first :: rest) => leadOf (leadOfBlocks behind rest) first
  | .paragraph cs => leadOfAll behind cs
  | .text value => value ++ behind
  | .other _ (some value) _ => value ++ behind
  | .other _ none (some cs) => leadOfAll behind cs
  | .other _ none none => behind
  | .heading _ _ => ""
  | .list _ _ _ => ""
  | .listItem _ _ => ""
  | .link _ _ => ""
  | .image _ _ => ""
  | .strong _ => ""
  | .emphasis _ => ""
  | .blockquote _ => ""
  | .delete _ => ""
  | .inlineCode _ => ""
  | .code _ _ => ""

/-- The same for nodes one after the other. -/
def leadOfAll (behind : String) : List Node → String
  | [] => behind
  | node :: rest => leadOf (leadOfAll behind rest) node

/-- The same for further children of a root, each behind an empty line. -/
def leadOfBlocks (behind : String) : List Node → String
  | [] => behind
  | node :: rest => "\n\n" ++ leadOf (leadOfBlocks behind rest) node

end

/-- What is written for nodes in front of the first tag. -/
def lead (nodes : List Node) : String := leadOfAll "" nodes

/-- What a quote around nodes renders to: a spoiler without the mark if the lead starts with it. -/
def quoteByLead (nodes : List Node) : String :=
  let inner := String.join (nodes.map render)
  if "! ".toList <+: (lead nodes).toList then
    "[spoiler]" ++ String.ofList (inner.toList.drop 2) ++ "[/spoiler]"
  else "[quote]" ++ inner ++ "[/quote]"

/-! ## Leads and texts -/

/-- The text is the lead and nothing more, or a tag follows. -/
def Leads (lead text : String) : Prop :=
  ∃ tail : List Char, text.toList = lead.toList ++ tail ∧ ∀ c ∈ tail.head?, c = '['

namespace Leads

variable {lead text : String}

theorem empty : Leads "" "" := ⟨[], rfl, nofun⟩

/-- A string may stand in front of both. -/
theorem append (h : Leads lead text) (s : String) : Leads (s ++ lead) (s ++ text) := by
  obtain ⟨tail, htext, htail⟩ := h
  refine ⟨tail, ?_, htail⟩
  rw [String.toList_append, String.toList_append, htext, List.append_assoc]

/-- In front of a tag there is nothing. -/
theorem of_bracket (h : text.toList.head? = some '[') : Leads "" text := by
  refine ⟨text.toList, rfl, fun c hc => ?_⟩
  rw [h] at hc
  exact (Option.mem_some.mp hc).symm

/-- A string without an opening bracket is in front of the text if it is in front of the lead. -/
theorem prefix_iff (h : Leads lead text) {mark : List Char} (hmark : '[' ∉ mark) :
    mark <+: text.toList ↔ mark <+: lead.toList := by
  obtain ⟨tail, htext, htail⟩ := h
  rw [htext]
  constructor
  · intro hprefix
    rcases List.prefix_or_prefix_of_prefix hprefix (List.prefix_append _ _) with hlead | hover
    · exact hlead
    · -- The mark goes beyond the lead: then it ends there, or takes in the bracket behind it.
      obtain ⟨more, rfl⟩ := hover
      cases more with
      | nil => exact ⟨[], by rw [List.append_nil, List.append_nil]⟩
      | cons c more =>
        rw [List.prefix_append_right_inj] at hprefix
        obtain ⟨rest, hrest⟩ := hprefix
        have hc : c = '[' := htail c (by rw [← hrest]; rfl)
        rw [hc] at hmark
        exact absurd List.mem_append_cons_self hmark
  · intro hlead
    exact hlead.trans (List.prefix_append _ _)

end Leads

/-! ## The lead of what is written -/

/-- A tag starts with a bracket, whatever follows it. -/
theorem head?_openTag (name rest : String) : (openTag name ++ rest).toList.head? = some '[' := by
  rw [openTag, String.toList_append, String.toList_append, String.toList_append]
  rfl

theorem leads_tagged (name inner after : String) : Leads "" (tagged name inner ++ after) := by
  apply Leads.of_bracket
  rw [tagged, String.append_assoc, String.append_assoc]
  exact head?_openTag name _

theorem leads_quoted (inner after : String) : Leads "" (quoted inner ++ after) := by
  unfold quoted
  split
  · exact leads_tagged "spoiler" _ after
  · exact leads_tagged "quote" _ after

mutual

/-- What is written for a node and behind it has the lead of both. -/
theorem leads_rendering {behind after : String} (h : Leads behind after) (node : Node) :
    Leads (leadOf behind node) (rendering node ++ after) := by
  cases node with
  | root cs =>
    cases cs with
    | nil =>
      rw [rendering, renderings, String.intercalate_nil, String.empty_append]
      exact h
    | cons first rest =>
      rw [rendering, renderings, intercalate_cons, String.append_assoc]
      exact leads_rendering (leads_blocks h rest) first
  | paragraph cs => exact leads_renderings h cs
  | heading depth cs => exact leads_tagged _ _ after
  | text value => exact h.append value
  | list ordered start cs => exact leads_tagged _ _ after
  | listItem checked cs =>
    apply Leads.of_bracket
    rw [rendering, String.append_assoc, String.toList_append]
    rfl
  | link url cs =>
    apply Leads.of_bracket
    rw [rendering, String.append_assoc, String.append_assoc]
    exact head?_openTag _ _
  | image url alt => exact leads_tagged _ _ after
  | strong cs => exact leads_tagged _ _ after
  | emphasis cs => exact leads_tagged _ _ after
  | blockquote cs => exact leads_quoted _ after
  | delete cs => exact leads_tagged _ _ after
  | inlineCode value => exact leads_tagged _ _ after
  | code value lang => exact leads_tagged _ _ after
  | other kind value cs =>
    cases value with
    | some value => exact h.append value
    | none =>
      cases cs with
      | some cs => exact leads_renderings h cs
      | none =>
        rw [rendering, String.empty_append]
        exact h

theorem leads_renderings {behind after : String} (h : Leads behind after) (nodes : List Node) :
    Leads (leadOfAll behind nodes) (String.join (renderings nodes) ++ after) := by
  cases nodes with
  | nil =>
    rw [renderings, String.join_nil, String.empty_append]
    exact h
  | cons node nodes =>
    rw [renderings, String.join_cons, String.append_assoc]
    exact leads_rendering (leads_renderings h nodes) node

theorem leads_blocks {behind after : String} (h : Leads behind after) (nodes : List Node) :
    Leads (leadOfBlocks behind nodes)
      (String.join ((renderings nodes).map (blockSeparator ++ ·)) ++ after) := by
  cases nodes with
  | nil =>
    rw [renderings, List.map_nil, String.join_nil, String.empty_append]
    exact h
  | cons node nodes =>
    rw [renderings, List.map_cons, String.join_cons, String.append_assoc, String.append_assoc]
    exact (leads_rendering (leads_blocks h nodes) node).append blockSeparator

end

/-- The mark is in front of what is written for nodes if it is in front of their lead. -/
theorem prefix_renderings_iff (nodes : List Node) :
    "! ".toList <+: (String.join (renderings nodes)).toList ↔ "! ".toList <+: (lead nodes).toList := by
  have hleads := leads_renderings Leads.empty nodes
  rw [String.append_empty] at hleads
  exact hleads.prefix_iff (by decide)

theorem rendering_blockquote (nodes : List Node) :
    rendering (.blockquote nodes) = quoteByLead nodes := by
  rw [rendering, quoted_join, quoteByLead, map_render, Rule.result]
  by_cases hmark : "! ".toList <+: (lead nodes).toList
  · rw [if_pos hmark, if_pos ((prefix_renderings_iff nodes).mpr hmark)]
  · rw [if_neg hmark, if_neg (mt (prefix_renderings_iff nodes).mp hmark)]

/-- **The leading plain text alone makes a quote a spoiler.** On any page a quote is written as a
spoiler without the first two characters of what its children render to if their lead starts with
the mark, and with all of it otherwise; and at any place of a document it stands for just that
text. -/
theorem text_blockquote (nodes : List Node) :
    (∀ page : Page, (page.node (.blockquote nodes)).text = page.text ++ quoteByLead nodes)
      ∧ ∀ context : Context,
        render (context.fill [.blockquote nodes]) = render (context.fill [.text (quoteByLead nodes)])
    := by
  constructor
  · intro page
    rw [text_node, rendering_blockquote]
  · intro context
    rw [render_eq, render_eq]
    apply rendering_fill_congr context (.inr ⟨rfl, rfl⟩)
    rw [renderings, renderings, rendering_blockquote]
    rfl

/-- The mark is put together from a text in a paragraph and the value of another node, in front of
emphasis; in the second quote there is a tag between its two characters. -/
example :
    quoteByLead [.root [.paragraph [.text "!"]], .other "html" (some " ") none, .emphasis [.text "a"]]
        = "[spoiler][i]a[/i][/spoiler]"
      ∧ quoteByLead [.text "!", .link "u" [.text " a"]] = "[quote]![url=u] a[/url][/quote]" := by
  decide +kernel

end Bracketdown.Markup
