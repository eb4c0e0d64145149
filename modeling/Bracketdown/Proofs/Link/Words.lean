import Bracketdown.Proofs.Link.Partition
import Bracketdown.Proofs.Node.Linked

/-!
# Literals lie in words

A blank ends everything that the scan for literals looks for, in both directions: an address and the
domain of an email address ahead, and a local part behind. And what follows a blank is at a
boundary, as the start of a text is. So a text with a blank in it may be cut there, and the two
parts scanned on their own (`splitText_words`). Cut at every blank, it is a list of words, and each
link is a link of one word.

The one thing that knows no such border is plain text, which is put together across it. To compare
two lists of segments it is therefore cut up altogether, down to single characters (`letters`), and
what is the same then is the same when texts are joined and empty ones dropped (`tidy_letters`).
-/

namespace Bracketdown.Link

open Text (isBlank)

/-! ## Looking ahead -/

section Blank

variable {w : Char} (hw : isBlank w = true)

theorem takeWhile_append_stop {p : Char → Bool} (hp : p w = false) (s rest : List Char) :
    (s ++ w :: rest).takeWhile p = s.takeWhile p := by
  induction s with
  | nil => exact List.takeWhile_cons_of_neg (by simp [hp])
  | cons c s ih => rw [List.cons_append, List.takeWhile_cons, List.takeWhile_cons, ih]

theorem startsWithFold_append_stop {start : List Char} (hstart : w.toLower ∉ start)
    (s rest : List Char) : startsWithFold start (s ++ w :: rest) = startsWithFold start s := by
  induction start generalizing s with
  | nil => rw [startsWithFold, startsWithFold]
  | cons c start ih =>
    rw [List.mem_cons, not_or] at hstart
    cases s with
    | nil => simp [startsWithFold, hstart.1]
    | cons d s => rw [List.cons_append, startsWithFold, startsWithFold, ih hstart.2]

include hw

theorem address?_append_blank (s rest : List Char) : address? (s ++ w :: rest) = address? s := by
  have hreach : (s ++ w :: rest).takeWhile (fun c => !(isBlank c || c = '<'))
      = s.takeWhile fun c => !(isBlank c || c = '<') :=
    takeWhile_append_stop (by simp [hw]) s rest
  unfold address?
  rw [hreach]

theorem emailDomain?_append_blank (s rest : List Char) :
    emailDomain? (s ++ w :: rest) = emailDomain? s := by
  have hstop : isEmailDomainChar w = false := eq_false_of_isBlank (by decide +kernel) hw
  unfold emailDomain?
  rw [takeWhile_append_stop hstop]

/-- A blank is no part of an URL, and what is behind it makes no URL of what is before it. -/
theorem url?_append_blank (s rest : List Char) : url? (s ++ w :: rest) = url? s := by
  have hstart : ∀ start ∈ bareStart :: schemes, startsWithFold start (s ++ w :: rest)
      = startsWithFold start s := by
    intro start hmem
    apply startsWithFold_append_stop
    have hnone : ((bareStart :: schemes).any fun start => start.contains w.toLower) = false :=
      eq_false_of_isBlank (p := fun c => (bareStart :: schemes).any (·.contains c.toLower))
        (by decide +kernel) hw
    have hthis := List.any_eq_false.mp hnone start hmem
    simpa using hthis
  have hfind : schemes.find? (fun scheme => startsWithFold scheme (s ++ w :: rest))
      = schemes.find? fun scheme => startsWithFold scheme s := by
    simp only [schemes, List.find?]
    rw [hstart _ (by simp [schemes]), hstart _ (by simp [schemes])]
  unfold url?
  rw [hfind]
  split
  next scheme hscheme =>
    have hfold : startsWithFold scheme s = true :=
      List.find?_some (p := fun scheme => startsWithFold scheme s) hscheme
    have hlength : scheme.length ≤ s.length := by
      have hprefix := (startsWithFold_iff.mp hfold).length_le
      rwa [List.length_map] at hprefix
    rw [List.drop_append_of_le_length hlength, List.take_append_of_le_length hlength,
      address?_append_blank hw]
  · rw [hstart bareStart (List.mem_cons_self ..), address?_append_blank hw]

end Blank

/-! ## Segments, letter by letter -/

/-- A segment with its plain text cut into single characters. -/
def Segment.letters : Segment → List Segment
  | .plain text => text.map fun c => .plain [c]
  | .literal url text => [.literal url text]

theorem flatMap_letters_plain (text : List Char) :
    (plain text).flatMap Segment.letters = text.map fun c => .plain [c] := by
  unfold plain
  split
  next hempty => rw [List.isEmpty_iff.mp hempty]; rfl
  · exact List.flatMap_singleton _ _

theorem letters_split (s : List Char) :
    (split s).flatMap Segment.letters = (splitFrom none [] s).flatMap Segment.letters := by
  have htext := (scan_splitFrom none [] s).flatMap_text
  unfold split
  split
  next hnil =>
    rw [hnil] at htext ⊢
    rw [← List.nil_append s, ← List.reverse_nil, ← htext]
    rfl
  · rfl

/-- Of the character before it a scan knows only whether it is a boundary. -/
theorem Scan.of_isBoundary {before before' : Option Char} {pending s : List Char}
    {found : List Segment} (h : Scan before pending s found)
    (hbefore : isBoundary before = isBoundary before') : Scan before' pending s found := by
  cases h with
  | done => exact .done
  | url hboundary hurl hrest => exact .url (hbefore ▸ hboundary) hurl hrest
  | email hname hne hdomain htext hrest => exact .email hname hne hdomain htext hrest
  | next c hurl hemail hrest => exact .next c (fun hb => hurl (hbefore ▸ hb)) hemail hrest

section Blank

variable {before : Option Char} {pending s : List Char} {found : List Segment} {w : Char}
  (hw : isBlank w = true)

include hw

/-- **What is pending in front of a blank is out of reach.** With it pending or not, the scan finds
the same. -/
theorem Scan.behind_blank (h : Scan before pending s found) (more : List Char) :
    ∃ found', Scan before (pending ++ w :: more) s found' ∧ found'.flatMap Segment.letters
      = ((w :: more).reverse.map fun c => .plain [c]) ++ found.flatMap Segment.letters := by
  have hlocal : isLocalChar w = false := eq_false_of_isBlank (by decide +kernel) hw
  induction h with
  | done =>
    refine ⟨_, .done, ?_⟩
    rw [flatMap_letters_plain, flatMap_letters_plain, List.reverse_append, List.map_append]
  | url hboundary hurl hrest ih =>
    refine ⟨_, .url hboundary hurl hrest, ?_⟩
    rw [List.flatMap_append, List.flatMap_append, flatMap_letters_plain, flatMap_letters_plain,
      List.reverse_append, List.map_append, List.append_assoc]
  | @email before name pending text domain rest found hname hne hdomain htext hrest ih =>
    have hname' : (name ++ (pending ++ w :: more)).takeWhile isLocalChar = name := by
      rw [← List.append_assoc, takeWhile_append_stop hlocal, hname]
    have hscan := @Scan.email before _ _ _ _ _ _ hname' hne hdomain htext hrest
    rw [← List.append_assoc] at hscan
    refine ⟨_, hscan, ?_⟩
    rw [List.flatMap_append, List.flatMap_append, flatMap_letters_plain, flatMap_letters_plain,
      List.reverse_append, List.map_append, List.append_assoc]
  | @next before pending rest found c hurl hemail hrest ih =>
    obtain ⟨found', hscan, hletters⟩ := ih
    refine ⟨found', .next c hurl (fun hc => ?_) hscan, hletters⟩
    rcases hemail hc with hdomain | hnone
    · exact .inl hdomain
    · exact .inr (by rw [takeWhile_append_stop hlocal, hnone])

/-- **What is behind a blank is scanned as a text of its own.** -/
theorem Scan.infront_of_blank (h : Scan before pending s found) (rest : List Char) :
    ∃ found', Scan before pending (s ++ w :: rest) found' ∧ found'.flatMap Segment.letters
      = found.flatMap Segment.letters ++ .plain [w] :: (split rest).flatMap Segment.letters := by
  induction h with
  | @done before pending =>
    -- The blank itself starts no literal, and behind it a text of its own could begin.
    have hboundary : isBoundary none = isBoundary (some w) := by simp [isBoundary, hw]
    obtain ⟨found, hscan, hletters⟩ := (scan_splitFrom none [] rest).behind_blank hw pending
    rw [List.nil_append] at hscan
    refine ⟨found, .next w (fun _ => ?_) (fun hc => ?_) (hscan.of_isBoundary hboundary), ?_⟩
    · rw [← List.nil_append (w :: rest), url?_append_blank hw]
      decide +kernel
    · rw [hc] at hw
      cases hw
    · rw [hletters, letters_split, flatMap_letters_plain, List.reverse_cons, List.map_append,
        List.append_assoc]
      rfl
  | @url before pending url text behind found hboundary hurl _ ih =>
    obtain ⟨found', hscan, hletters⟩ := ih
    rw [← url?_append_blank hw _ rest, List.append_assoc] at hurl
    have hfound := @Scan.url _ pending _ _ _ _ hboundary hurl hscan
    rw [← List.append_assoc] at hfound
    refine ⟨_, hfound, ?_⟩
    simp only [List.flatMap_append, List.flatMap_cons, hletters, List.append_assoc]
  | @email before name pending text domain behind found hname hne hdomain htext _ ih =>
    obtain ⟨found', hscan, hletters⟩ := ih
    rw [← emailDomain?_append_blank hw _ rest, List.append_assoc] at hdomain
    have hfound := @Scan.email before _ _ _ _ _ _ hname hne hdomain htext hscan
    rw [← List.append_assoc, ← List.cons_append] at hfound
    refine ⟨_, hfound, ?_⟩
    simp only [List.flatMap_append, List.flatMap_cons, hletters, List.append_assoc]
  | @next before pending behind found c hurl hemail _ ih =>
    obtain ⟨found', hscan, hletters⟩ := ih
    rw [List.cons_append]
    refine ⟨found', .next c (fun hb => ?_) (fun hc => ?_) hscan, hletters⟩
    · rw [← hurl hb, ← List.cons_append, url?_append_blank hw]
    · rw [emailDomain?_append_blank hw]
      exact hemail hc

/-- **A text may be cut at a blank.** -/
theorem letters_split_append (s rest : List Char) :
    (split (s ++ w :: rest)).flatMap Segment.letters
      = (split s).flatMap Segment.letters
        ++ .plain [w] :: (split rest).flatMap Segment.letters := by
  obtain ⟨found, hscan, hletters⟩ := (scan_splitFrom none [] s).infront_of_blank hw rest
  rw [letters_split, ← hscan.eq_splitFrom, hletters, letters_split s]

end Blank

end Bracketdown.Link

/-! ## Nodes -/

namespace Bracketdown.Node

open Link (Segment)
open Text (isBlank parts)

def isEmptyText : Node → Bool
  | .text value => value.isEmpty
  | _ => false

/-- Drops empty texts and joins those that are then side by side. -/
def tidy (nodes : List Node) : List Node := joinTexts (nodes.filter fun node => !node.isEmptyText)

theorem tidy_text_empty (nodes : List Node) : tidy (.text "" :: nodes) = tidy nodes := rfl

theorem tidy_text {value : String} (h : value ≠ "") (nodes : List Node) :
    tidy (.text value :: nodes) = consJoined (.text value) (tidy nodes) := by
  have hkeep : (!(Node.text value).isEmptyText) = true := by
    simp [isEmptyText, h]
  unfold tidy
  rw [List.filter_cons, if_pos hkeep]
  rfl

theorem tidy_of_ne_text {node : Node} (h : ∀ value, node ≠ .text value) (nodes : List Node) :
    tidy (node :: nodes) = node :: tidy nodes := by
  have hkeep : (!node.isEmptyText) = true := by
    cases node with
    | text value => exact absurd rfl (h value)
    | _ => rfl
  unfold tidy
  rw [List.filter_cons, if_pos hkeep]
  exact consJoined_of_ne_text h _

/-- What comes behind matters only as far as it is tidied itself. -/
theorem tidy_append_congr (first : List Node) {nodes nodes' : List Node}
    (h : tidy nodes = tidy nodes') : tidy (first ++ nodes) = tidy (first ++ nodes') := by
  induction first with
  | nil => exact h
  | cons node first ih =>
    rw [List.cons_append, List.cons_append]
    rcases text_or_ne node with ⟨value, rfl⟩ | hnode
    · by_cases hempty : value = ""
      · rw [hempty, tidy_text_empty, tidy_text_empty, ih]
      · rw [tidy_text hempty, tidy_text hempty, ih]
    · rw [tidy_of_ne_text hnode, tidy_of_ne_text hnode, ih]

/-- A text is the same as its characters, one by one. -/
theorem tidy_text_append (text : List Char) (nodes : List Node) :
    tidy ((text.map fun c => Node.text (String.ofList [c])) ++ nodes)
      = tidy (.text (String.ofList text) :: nodes) := by
  induction text with
  | nil => rfl
  | cons c text ih =>
    have hsingle : String.ofList [c] ≠ "" := by simp
    have hwhole : String.ofList (c :: text) ≠ "" := by simp
    have hcons : String.ofList [c] ++ String.ofList text = String.ofList (c :: text) := by
      rw [← String.ofList_append, List.singleton_append]
    rw [List.map_cons, List.cons_append, tidy_text hsingle, ih, tidy_text hwhole]
    by_cases hempty : text = []
    · rw [hempty]
      rfl
    · have hrest : String.ofList text ≠ "" := by simpa using hempty
      rw [tidy_text hrest, consJoined_text_text, hcons]

/-- Segments and their letters become the same nodes, once these are tidied. -/
theorem tidy_letters (segments : List Segment) :
    tidy ((segments.flatMap Segment.letters).map (·.toNode))
      = tidy (segments.map (·.toNode)) := by
  induction segments with
  | nil => rfl
  | cons segment segments ih =>
    rw [List.flatMap_cons, List.map_append, List.map_cons]
    cases segment with
    | plain text =>
      rw [Segment.letters, List.map_map]
      refine (tidy_text_append text _).trans ?_
      exact tidy_append_congr [.text (String.ofList text)] ih
    | literal url text => exact tidy_append_congr [(Segment.literal url text).toNode] ih

/-- The nodes of a text that is not empty are tidy. -/
theorem tidy_splitText {s : String} (hs : s ≠ "") : tidy (splitText s) = splitText s := by
  have hapart := apart_splitText s
  have hkeep : (splitText s).filter (fun node => !node.isEmptyText) = splitText s := by
    refine List.filter_eq_self.mpr fun node hnode => ?_
    obtain ⟨segment, hsegment, rfl⟩ := List.mem_map.mp hnode
    cases segment with
    | literal url text => rfl
    | plain text =>
      have hne : text ≠ [] := by
        rintro rfl
        exact hs (String.toList_eq_nil_iff.mp (Link.eq_nil_of_mem_split hsegment))
      simpa [Link.Segment.toNode, isEmptyText] using hne
  unfold tidy
  rw [hkeep]
  generalize splitText s = nodes at hapart
  induction nodes with
  | nil => rfl
  | cons node nodes ih =>
    have hrest := ih fun before a b behind h => hapart (node :: before) a b behind (by rw [h]; rfl)
    rw [joinTexts, hrest]
    rcases text_or_ne node with ⟨a, rfl⟩ | hnode
    · cases nodes with
      | nil => rfl
      | cons next nodes =>
        apply consJoined_onto_ne_text
        rintro b rfl
        exact hapart [] a b nodes rfl
    · exact consJoined_of_ne_text hnode nodes

/-- The nodes of a text with a blank in it are those of the texts before and behind the blank. -/
theorem tidy_splitText_append (a b : List Char) {w : Char} (hw : isBlank w = true) :
    tidy (splitText (String.ofList (a ++ w :: b)))
      = tidy (splitText (String.ofList a) ++ .text (String.singleton w)
        :: splitText (String.ofList b)) := by
  have hletters : (Link.split (a ++ w :: b)).flatMap Segment.letters
      = (Link.split a ++ .plain [w] :: Link.split b).flatMap Segment.letters := by
    rw [Link.letters_split_append hw, List.flatMap_append, List.flatMap_cons]
    rfl
  have hnodes := congrArg (fun segments => tidy (segments.map (·.toNode))) hletters
  simp only [tidy_letters] at hnodes
  rw [List.map_append, List.map_cons] at hnodes
  simpa only [splitText, String.toList_ofList, String.singleton_eq_ofList, Segment.toNode]
    using hnodes

/-! ## Words -/

/-- What words become, one by one, with the blanks between them as texts. -/
def spread : List (List Char) → List Char → List Node
  | [], _ => []
  | word :: _, [] => splitText (String.ofList word)
  | word :: words, c :: blanks =>
    splitText (String.ofList word) ++ .text (String.singleton c) :: spread words blanks

/-- A text has no blank, or it is a text without blanks in front of its first one. -/
theorem blankless_or_exists_blank (s : List Char) :
    (∀ c ∈ s, isBlank c = false)
      ∨ ∃ word w rest, s = word ++ w :: rest ∧ isBlank w = true
        ∧ ∀ c ∈ word, isBlank c = false := by
  induction s with
  | nil => exact .inl fun c hc => by cases hc
  | cons c s ih =>
    by_cases hc : isBlank c = true
    · exact .inr ⟨[], c, s, rfl, hc, fun d hd => by cases hd⟩
    · rcases ih with hnone | ⟨word, w, rest, rfl, hw, hword⟩
      · left
        intro d hd
        rcases List.mem_cons.mp hd with rfl | hd
        · simpa using hc
        · exact hnone d hd
      · right
        refine ⟨c :: word, w, rest, rfl, hw, ?_⟩
        intro d hd
        rcases List.mem_cons.mp hd with rfl | hd
        · simpa using hc
        · exact hword d hd

/-- **Words part by part**: what holds of a text without blanks, and of a word, a blank and a text
for which it holds already, holds of every text. -/
theorem wordInduction {motive : List Char → Prop}
    (word : ∀ s, (∀ c ∈ s, isBlank c = false) → motive s)
    (blank : ∀ s w rest, (∀ c ∈ s, isBlank c = false) → isBlank w = true → motive rest →
      motive (s ++ w :: rest)) (s : List Char) : motive s := by
  rcases blankless_or_exists_blank s with hnone | ⟨first, w, rest, hs, hw, hfirst⟩
  · exact word s hnone
  · have hshorter : rest.length < s.length := by
      rw [hs, List.length_append, List.length_cons]
      omega
    rw [hs]
    exact blank first w rest hfirst hw (wordInduction word blank rest)
termination_by s.length

theorem filter_blank_eq_nil {s : List Char} (h : ∀ c ∈ s, isBlank c = false) :
    s.filter isBlank = [] := by
  refine List.filter_eq_nil_iff.mpr fun c hc => ?_
  rw [h c hc]
  exact Bool.false_ne_true

theorem tidy_splitText_spread (s : List Char) :
    tidy (splitText (String.ofList s)) = tidy (spread (parts isBlank s) (s.filter isBlank)) := by
  induction s using wordInduction with
  | word s hs =>
    rw [Text.parts_of_not_mark hs, filter_blank_eq_nil hs]
    rfl
  | blank s w rest hs hw ih =>
    rw [tidy_splitText_append s rest hw, Text.parts_append_mark hw hs, List.filter_append,
      filter_blank_eq_nil hs, List.nil_append, List.filter_cons, if_pos hw, spread]
    apply tidy_append_congr
    exact tidy_append_congr [.text (String.singleton w)] ih

/-! ## Links -/

theorem filter_isLink_consJoined (node : Node) (nodes : List Node) :
    (consJoined node nodes).filter isLink = (node :: nodes).filter isLink := by
  unfold consJoined
  split <;> rfl

/-- Texts hold no links. -/
theorem filter_isLink_tidy (nodes : List Node) :
    (tidy nodes).filter isLink = nodes.filter isLink := by
  induction nodes with
  | nil => rfl
  | cons node nodes ih =>
    rcases text_or_ne node with ⟨value, rfl⟩ | hnode
    · by_cases hempty : value = ""
      · rw [hempty, tidy_text_empty, ih]
        rfl
      · rw [tidy_text hempty, filter_isLink_consJoined]
        exact ih
    · rw [tidy_of_ne_text hnode, List.filter_cons, List.filter_cons, ih]

theorem filter_isLink_spread (words : List (List Char)) (blanks : List Char)
    (h : words.length = blanks.length + 1) :
    (spread words blanks).filter isLink
      = words.flatMap fun word => (splitText (String.ofList word)).filter isLink := by
  induction blanks generalizing words with
  | nil =>
    obtain ⟨word, rfl⟩ := List.length_eq_one_iff.mp h
    exact (List.flatMap_singleton _ _).symm
  | cons c blanks ih =>
    cases words with
    | nil => cases h
    | cons word words =>
      rw [spread, List.filter_append, List.flatMap_cons, ← ih words (by simpa using h)]
      rfl

theorem filter_isLink_splitText (s : List Char) :
    (splitText (String.ofList s)).filter isLink
      = (parts isBlank s).flatMap fun word => (splitText (String.ofList word)).filter isLink := by
  rw [← filter_isLink_tidy, tidy_splitText_spread, filter_isLink_tidy, filter_isLink_spread]
  rw [Text.length_parts, List.countP_eq_length_filter]

/-- **Literals are decided between blanks.** A text with a blank in it becomes what the texts before
and behind the blank become, with the blank as a text between them and texts joined. So any text
that is not empty becomes what its words do, with the blanks between them, and its links are the
links of its words. -/
theorem splitText_words :
    (∀ (a b : String) (w : Char), isBlank w = true →
      splitText (a ++ String.singleton w ++ b)
        = tidy (splitText a ++ .text (String.singleton w) :: splitText b))
    ∧ ∀ s : String, s ≠ "" →
      splitText s = tidy (spread (parts isBlank s.toList) (s.toList.filter isBlank))
      ∧ (splitText s).filter isLink
        = (parts isBlank s.toList).flatMap fun word =>
          (splitText (String.ofList word)).filter isLink := by
  constructor
  · intro a b w hw
    have hwhole : a ++ String.singleton w ++ b = String.ofList (a.toList ++ w :: b.toList) := by
      simp [← String.toList_inj]
    have hne : a ++ String.singleton w ++ b ≠ "" := by
      rw [hwhole]
      simp
    rw [← tidy_splitText hne, hwhole, tidy_splitText_append _ _ hw, String.ofList_toList,
      String.ofList_toList]
  · intro s hs
    have hspread := tidy_splitText_spread s.toList
    have hlinks := filter_isLink_splitText s.toList
    rw [String.ofList_toList] at hspread hlinks
    rw [tidy_splitText hs] at hspread
    exact ⟨hspread, hlinks⟩

/-- An URL in front of a line end, and an email address behind it. -/
theorem splitText_words_lines :
    isBlank '\n' = true ∧ "www.a.b\nx@y.z" ≠ ""
      ∧ splitText "www.a.b\nx@y.z"
        = [.link "http://www.a.b" [.text "www.a.b"], .text "\n",
          .link "mailto:x@y.z" [.text "x@y.z"]]
      ∧ (splitText "www.a.b\nx@y.z").filter isLink
        = [.link "http://www.a.b" [.text "www.a.b"], .link "mailto:x@y.z" [.text "x@y.z"]] := by
  have hblank : isBlank '\n' = true := by decide
  have hne : "www.a.b\nx@y.z" ≠ "" := by decide
  have hurl : splitText "www.a.b" = [.link "http://www.a.b" [.text "www.a.b"]] := by
    have hsplit : Link.split "www.a.b".toList
        = [.literal "http://www.a.b".toList "www.a.b".toList] := by decide +kernel
    rw [splitText, hsplit]
    rfl
  have hemail : splitText "x@y.z" = [.link "mailto:x@y.z" [.text "x@y.z"]] := by
    have hsplit : Link.split "x@y.z".toList
        = [.literal "mailto:x@y.z".toList "x@y.z".toList] := by decide +kernel
    rw [splitText, hsplit]
    rfl
  have hwhole : "www.a.b\nx@y.z" = "www.a.b" ++ String.singleton '\n' ++ "x@y.z" := by decide
  have hwords : parts isBlank "www.a.b\nx@y.z".toList = ["www.a.b".toList, "x@y.z".toList] := by
    decide +kernel
  refine ⟨hblank, hne, ?_, ?_⟩
  · rw [hwhole, splitText_words.1 _ _ _ hblank, hurl, hemail]
    rfl
  · rw [(splitText_words.2 _ hne).2, hwords, List.flatMap_cons, List.flatMap_singleton,
      String.ofList_toList, String.ofList_toList, hurl, hemail]
    rfl

end Bracketdown.Node
