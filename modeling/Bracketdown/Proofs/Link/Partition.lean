import Bracketdown.Proofs.Link.Legal
import Bracketdown.Proofs.Node.LeafText
import Mathlib.Data.List.Chain

/-!
# The nodes that a text is cut into

`splitText` cuts a text into texts and links. `IsSplit` says what a reader of the nodes may rely on:
put together they are the text, no two texts stand side by side, none is empty, and each link has
the text it was found as for its only child and leads to an address that this text alone decides
(`addressOf`). Which of the three sorts of literal it is need not be remembered: an email address
has no colon, so it starts with no scheme, and the host of an URL that starts with `www.` has no
`@`, so no local part ends in front of one.

The scan puts plain text out only in front of a literal and at the end of the text, which is why two
texts are never side by side (`Scan.apart`).
-/

namespace Bracketdown.Link

/-! ## The address of a literal -/

/-- Whether a text starts with a scheme, in upper or lower case. -/
def hasScheme (text : List Char) : Bool := schemes.any fun scheme => startsWithFold scheme text

/-- Whether a text has an `@`, and in front of the first one a local part and nothing else. -/
def hasLocalPart (text : List Char) : Bool :=
  let name := text.takeWhile (· ≠ '@')
  text.contains '@' && !name.isEmpty && name.all isLocalChar

/-- The address that the text of a literal leads to. -/
def addressOf (text : List Char) : List Char :=
  if hasScheme text then text
  else if hasLocalPart text then "mailto:".toList ++ text
  else "http://".toList ++ text

/-- What holds of every literal: its address is that of its text, which starts with `www.` if it is
neither of the other sorts. -/
structure Leads (url text : List Char) : Prop where
  ne_nil : text ≠ []
  url_eq : url = addressOf text
  bare : hasScheme text = false → hasLocalPart text = false → startsWithFold bareStart text = true

/-- Only a colon has a colon for its lower case. -/
theorem eq_colon_of_toLower {c : Char} (h : c.toLower = ':') : c = ':' := by
  unfold Char.toLower at h
  split at h
  next hupper =>
    have hval := congrArg (fun d : Char => d.val.toNat) h
    obtain ⟨hlow, hhigh⟩ := hupper
    rw [ge_iff_le, UInt32.le_iff_toNat_le] at hlow
    rw [UInt32.le_iff_toNat_le] at hhigh
    simp [UInt32.toNat_add] at hval hlow hhigh
    omega
  · exact h

/-- A scheme has a colon. -/
theorem colon_mem_of_hasScheme {text : List Char} (h : hasScheme text = true) : ':' ∈ text := by
  obtain ⟨scheme, hscheme, hstart⟩ := List.any_eq_true.mp h
  have hcolon : ∀ scheme ∈ schemes, ':' ∈ scheme := by decide
  obtain ⟨c, hc, hlower⟩ :=
    List.mem_map.mp ((startsWithFold_iff.mp hstart).subset (hcolon scheme hscheme))
  rwa [← eq_colon_of_toLower hlower]

theorem hasScheme_append {start : List Char} (h : start.map Char.toLower ∈ schemes)
    (rest : List Char) : hasScheme (start ++ rest) = true := by
  refine List.any_eq_true.mpr ⟨_, h, startsWithFold_iff.mpr ?_⟩
  rw [List.map_append]
  exact List.prefix_append _ _

/-- A text that starts with `www.` starts with no scheme. -/
theorem hasScheme_of_bareStart {text : List Char} (h : bareStart <+: text.map Char.toLower) :
    hasScheme text = false := by
  obtain ⟨more, hmore⟩ := h
  refine List.any_eq_false.mpr fun scheme hscheme hstart => ?_
  have hletter : ∀ scheme ∈ schemes, scheme.head? = some 'h' := by decide
  obtain ⟨cs, rfl⟩ := List.head?_eq_some_iff.mp (hletter scheme hscheme)
  rw [startsWithFold_iff, ← hmore] at hstart
  exact absurd (List.cons_prefix_cons.mp hstart).1 (by decide)

theorem takeWhile_at {name : List Char} (h : '@' ∉ name) (rest : List Char) :
    (name ++ '@' :: rest).takeWhile (· ≠ '@') = name := by
  rw [List.takeWhile_append_of_pos, List.takeWhile_cons_of_neg (by decide), List.append_nil]
  intro c hc
  rw [decide_eq_true_eq]
  rintro rfl
  exact h hc

theorem hasLocalPart_iff {text : List Char} :
    hasLocalPart text = true ↔ ∃ name rest, text = name ++ '@' :: rest ∧ name ≠ []
      ∧ ∀ c ∈ name, isLocalChar c = true := by
  unfold hasLocalPart
  simp only [Bool.and_eq_true, List.contains_eq_mem, decide_eq_true_eq, Bool.not_eq_true',
    List.isEmpty_eq_false_iff, List.all_eq_true]
  constructor
  · rintro ⟨⟨hmem, hne⟩, hname⟩
    obtain ⟨name, rest, rfl, hfirst⟩ := List.eq_append_cons_of_mem hmem
    rw [takeWhile_at hfirst] at hne hname
    exact ⟨name, rest, rfl, hne, hname⟩
  · rintro ⟨name, rest, rfl, hne, hname⟩
    have hfirst : '@' ∉ name := fun hmem => absurd (hname _ hmem) (by decide)
    rw [takeWhile_at hfirst]
    exact ⟨⟨List.mem_append_cons_self, hne⟩, hname⟩

/-- A character that may stand in a local part ends no host. -/
theorem not_endsHost_of_isLocalChar {c : Char} (h : isLocalChar c = true) : endsHost c = false := by
  simp only [endsHost, Bool.or_eq_false_iff, decide_eq_false_iff_not]
  refine ⟨⟨⟨?_, ?_⟩, ?_⟩, ?_⟩ <;>
    · rintro rfl
      exact absurd h (by decide)

/-- The host of an address has no `@`, so no local part ends in front of the first one. -/
theorem hasLocalPart_of_address? {s found : List Char} (h : address? s = some found) :
    hasLocalPart found = false := by
  refine Bool.eq_false_iff.mpr fun hlocal => ?_
  obtain ⟨name, rest, rfl, -, hname⟩ := hasLocalPart_iff.mp hlocal
  have hhost : (name ++ '@' :: rest).takeWhile (fun c => !endsHost c)
      = name ++ '@' :: rest.takeWhile fun c => !endsHost c := by
    rw [List.takeWhile_append_of_pos, List.takeWhile_cons_of_pos (by decide)]
    intro c hc
    rw [not_endsHost_of_isLocalChar (hname c hc), Bool.not_false]
  have hdomain := (address?_eq_some h).2
  rw [hhost, not_isDomain_append (by decide)] at hdomain
  cases hdomain

theorem leads_of_url? {s url text : List Char} (h : url? s = some (url, text)) :
    Leads url text := by
  have hne := ne_nil_of_url? h
  obtain ⟨start, rest, found, -, hstart, hfound, rfl, rfl⟩ := exists_start_of_url? h
  rcases hstart.address hfound with hscheme | ⟨rfl, hbare⟩
  · have hhas := hasScheme_append hscheme found
    refine ⟨hne, ?_, fun hnone => ?_⟩
    · rw [urlOf, if_neg (ne_nil_of_mem_schemes hscheme), addressOf, if_pos hhas]
    · rw [hhas] at hnone
      cases hnone
  · have hscheme := hasScheme_of_bareStart hbare
    have hlocal := hasLocalPart_of_address? hfound
    refine ⟨hne, ?_, fun _ _ => startsWithFold_iff.mpr hbare⟩
    rw [List.nil_append, urlOf, if_pos rfl, addressOf, hscheme, hlocal]
    rfl

/-- No colon is in an email address. -/
theorem leads_of_email {name domain behind : List Char} (hne : name ≠ [])
    (hname : ∀ c ∈ name, isLocalChar c = true)
    (hdomain : emailDomain? (domain ++ behind) = some domain) :
    Leads ("mailto:".toList ++ (name ++ '@' :: domain)) (name ++ '@' :: domain) := by
  have hlocal : hasLocalPart (name ++ '@' :: domain) = true :=
    hasLocalPart_iff.mpr ⟨name, domain, rfl, hne, hname⟩
  have hemail : IsEmail [] behind name domain :=
    isEmail_of_emailDomain? hne hname (fun _ h => by cases h) hdomain
  have hscheme : hasScheme (name ++ '@' :: domain) = false := by
    refine Bool.eq_false_iff.mpr fun hscheme => ?_
    rcases List.mem_append.mp (colon_mem_of_hasScheme hscheme) with hcolon | hcolon
    · exact absurd (hname _ hcolon) (by decide)
    · rcases List.mem_cons.mp hcolon with hcolon | hcolon
      · cases hcolon
      · exact absurd (hemail.domainChars _ hcolon) (by decide)
  refine ⟨by simp, ?_, fun _ hnone => ?_⟩
  · rw [addressOf, hscheme, hlocal]
    rfl
  · rw [hlocal] at hnone
    cases hnone

theorem leads_of_mem_split {s url text : List Char} (h : Segment.literal url text ∈ split s) :
    Leads url text := by
  obtain ⟨done, rest, hsplit⟩ := List.append_of_mem h
  cases found_of_split hsplit with
  | url _ hurl => exact leads_of_url? hurl
  | email hne hname _ hdomain => exact leads_of_email hne hname hdomain

/-! ## Texts between the literals -/

/-- Whether a segment is plain text. -/
def Segment.isPlain : Segment → Bool
  | .plain _ => true
  | .literal _ _ => false

/-- Not both segments are plain text. -/
def Parted (first second : Segment) : Prop := (first.isPlain && second.isPlain) = false

/-- No two texts stand side by side in the segments, and none is empty. -/
structure Apart (segments : List Segment) : Prop where
  parted : segments.IsChain Parted
  ne_nil : ∀ text, .plain text ∈ segments → text ≠ []

theorem apart_plain (pending : List Char) : Apart (plain pending) := by
  unfold plain
  split
  · exact ⟨List.isChain_nil, fun _ h => absurd h List.not_mem_nil⟩
  next hne =>
    refine ⟨List.isChain_singleton _, fun text h => ?_⟩
    cases List.mem_singleton.mp h
    exact mt List.isEmpty_iff.mpr hne

theorem Apart.behind {found : List Segment} (h : Apart found) (pending url text : List Char) :
    Apart (plain pending ++ .literal url text :: found) := by
  obtain ⟨hchain, hne⟩ := apart_plain pending
  refine ⟨List.isChain_append.mpr ⟨hchain, ?_, ?_⟩, fun text' hmem => ?_⟩
  · exact List.isChain_cons.mpr ⟨fun _ _ => rfl, h.parted⟩
  · rintro first - second hsecond
    cases hsecond
    exact Bool.and_false _
  · rcases List.mem_append.mp hmem with hmem | hmem
    · exact hne text' hmem
    · rcases List.mem_cons.mp hmem with heq | hmem
      · cases heq
      · exact h.ne_nil text' hmem

/-- **The scan keeps texts apart**: it puts one out only in front of a literal or at the end. -/
theorem Scan.apart {before : Option Char} {pending s : List Char} {found : List Segment}
    (h : Scan before pending s found) : Apart found := by
  induction h with
  | done => exact apart_plain _
  | url _ _ _ ih => exact ih.behind _ _ _
  | email _ _ _ _ _ ih => exact ih.behind _ _ _
  | next _ _ _ _ ih => exact ih

theorem split_ne_nil (s : List Char) : split s ≠ [] := by
  unfold split
  split
  · exact List.cons_ne_nil _ _
  next hne => exact hne

theorem parted_split (s : List Char) : (split s).IsChain Parted := by
  unfold split
  split
  · exact List.isChain_singleton _
  · exact (scan_splitFrom none [] s).apart.parted

/-- Only the empty text has an empty part. -/
theorem eq_nil_of_mem_split {s : List Char} (h : .plain [] ∈ split s) : s = [] := by
  unfold split at h
  split at h
  · cases List.mem_singleton.mp h
    rfl
  · exact absurd rfl ((scan_splitFrom none [] s).apart.ne_nil [] h)

end Bracketdown.Link

/-! ## Nodes -/

namespace Bracketdown.Node

open Link (Segment)

/-- What the nodes are that a text is cut into. -/
structure IsSplit (s : String) (nodes : List Node) : Prop where
  /-- Read in order, the values of the texts and the texts in the links are the text. -/
  text : leafTexts nodes = s
  ne_nil : nodes ≠ []
  apart : ∀ before a b behind, nodes ≠ before ++ .text a :: .text b :: behind
  /-- Every node is a text, empty only if there is nothing to cut, or a link. -/
  node : ∀ node ∈ nodes,
    (∃ value, node = .text value ∧ (value = "" → s = ""))
    ∨ ∃ value, node = .link (String.ofList (Link.addressOf value.toList)) [.text value]
      ∧ value ≠ ""
      ∧ (Link.hasScheme value.toList = false → Link.hasLocalPart value.toList = false →
        Link.startsWithFold Link.bareStart value.toList = true)

theorem isPlain_of_toNode {segment : Segment} {value : String}
    (h : segment.toNode = .text value) : segment.isPlain = true := by
  cases segment with
  | plain => rfl
  | literal => cases h

theorem apart_splitText (s : String) (before : List Node) (a b : String) (behind : List Node) :
    splitText s ≠ before ++ .text a :: .text b :: behind := by
  intro h
  obtain ⟨_, _, hsplit, -, h⟩ := List.map_eq_append_iff.mp h
  obtain ⟨first, _, rfl, hfirst, h⟩ := List.map_eq_cons_iff.mp h
  obtain ⟨second, _, rfl, hsecond, -⟩ := List.map_eq_cons_iff.mp h
  have hparted : Link.Parted first second :=
    List.isChain_iff_forall_rel_of_append_cons_cons.mp (Link.parted_split s.toList) hsplit
  rw [Link.Parted, isPlain_of_toNode hfirst, isPlain_of_toNode hsecond] at hparted
  cases hparted

/-- **Cutting a text into texts and links partitions it.** -/
theorem isSplit_splitText (s : String) : IsSplit s (splitText s) := by
  refine ⟨leafTexts_splitText s, ?_, apart_splitText s, ?_⟩
  · rw [splitText, ne_eq, List.map_eq_nil_iff]
    exact Link.split_ne_nil s.toList
  · intro node hnode
    obtain ⟨segment, hsegment, rfl⟩ := List.mem_map.mp hnode
    cases segment with
    | plain text =>
      refine .inl ⟨String.ofList text, rfl, fun hempty => ?_⟩
      rw [String.ofList_eq_empty_iff] at hempty
      subst hempty
      exact String.toList_eq_nil_iff.mp (Link.eq_nil_of_mem_split hsegment)
    | literal url text =>
      have hleads := Link.leads_of_mem_split hsegment
      refine .inr ⟨String.ofList text, ?_, ?_, ?_⟩
      · rw [String.toList_ofList, ← hleads.url_eq]
        rfl
      · rw [ne_eq, String.ofList_eq_empty_iff]
        exact hleads.ne_nil
      · rw [String.toList_ofList]
        exact hleads.bare

end Bracketdown.Node
