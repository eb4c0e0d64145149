import Bracketdown.Proofs.Link.Offset

/-!
# The scan by byte offsets does not slip

Whatever the text, every slice that the scan by byte offsets makes is between characters, in order
and inside the text, none of its loops goes on without an end, and it finds the nodes that
`Node.splitText` does (`splitText_eq_ok`). Each literal begins where the last one ended or behind
it, is not empty, ends inside the text, and takes the scan ahead.

A cursor is `At` a place of the text, and what is found there is one of three things (`Outcome`),
read off `Scan`. From each of them a round leads to another place, with fewer bytes left, or to the
end. So the bound on the rounds suffices, and what holds at every place holds on the whole way.
-/

namespace Bracketdown.Link.Offset

open String (utf8Len)

/-! ## Places -/

/-- The place of a cursor: `past` is the text up to the end of the last literal, `pending` the plain
text since then, written backwards, and `s` what is left. There are nodes once there was a
literal. -/
structure At (text : String) (cursor : Cursor) (past pending s : List Char) : Prop where
  cut : text.toList = past ++ pending.reverse ++ s
  last : cursor.last = utf8Len past
  idx : cursor.idx = utf8Len past + utf8Len pending
  nodes : cursor.nodes = [] ↔ past = []

/-- Whether both offsets of a cursor are at borders of the text, in order. -/
structure Cursor.Placed (text : String) (cursor : Cursor) : Prop where
  last_border : IsBorder text cursor.last
  idx_border : IsBorder text cursor.idx
  last_le_idx : cursor.last ≤ cursor.idx

/-- Whether a literal has its ends at borders of the text, does not reach back beyond the last one,
is not empty, and takes the scan ahead. -/
structure Literal.Within (text : String) (cursor : Cursor) (literal : Literal) : Prop where
  start_border : IsBorder text literal.start
  stop_border : IsBorder text literal.stop
  last_le_start : cursor.last ≤ literal.start
  start_lt_stop : literal.start < literal.stop
  stop_le_size : literal.stop ≤ text.utf8ByteSize
  idx_lt_stop : cursor.idx < literal.stop

/-- What may be found at a place, and the segments that come of it: nothing at the end of the text,
nothing by the next character, or a literal with plain text `left` in front of it. -/
inductive Outcome (text : String) (cursor : Cursor) (past pending : List Char) :
    List Char → List Segment → Prop where
  | done (hliteral : literalAt text cursor.idx cursor.last = .ok none) :
    Outcome text cursor past pending [] (plain pending.reverse)
  | next {c : Char} {rest : List Char} {found : List Segment}
    (hliteral : literalAt text cursor.idx cursor.last = .ok none)
    (hrest : Scan (some c) (c :: pending) rest found) :
    Outcome text cursor past pending (c :: rest) found
  | literal {left url name s rest : List Char} {found : List Segment}
    (hliteral : literalAt text cursor.idx cursor.last
      = .ok (some (literalOf (past ++ left.reverse) url name)))
    (hcut : text.toList = past ++ left.reverse ++ name ++ rest) (hne : name ≠ [])
    (hshorter : utf8Len rest < utf8Len s) (hrest : Scan name.getLast? [] rest found) :
    Outcome text cursor past pending s (plain left.reverse ++ .literal url name :: found)

namespace At

variable {text : String} {cursor : Cursor} {past pending s : List Char}

theorem start (text : String) : At text .start [] [] text.toList :=
  ⟨rfl, rfl, rfl, iff_of_true rfl rfl⟩

theorem idx_eq (h : At text cursor past pending s) :
    cursor.idx = utf8Len (past ++ pending.reverse) := by
  rw [h.idx, String.utf8Len_append, String.utf8Len_reverse]

theorem size_eq (h : At text cursor past pending s) :
    text.utf8ByteSize = cursor.idx + utf8Len s := by
  rw [utf8ByteSize_eq h.cut, String.utf8Len_append, h.idx_eq]

theorem placed (h : At text cursor past pending s) : cursor.Placed text := by
  refine ⟨?_, ?_, ?_⟩
  · rw [h.last]
    exact isBorder (by rw [h.cut, List.append_assoc])
  · rw [h.idx_eq]
    exact isBorder h.cut
  · rw [h.last, h.idx]
    exact Nat.le_add_right _ _

/-! ### What is found -/

theorem literalAt_nil (h : At text cursor past pending []) :
    literalAt text cursor.idx cursor.last = .ok none := by
  have hnone : (if isBoundary (past ++ pending.reverse).getLast? = true then url? [] else none)
      = none := ite_self ..
  rw [h.idx_eq, literalAt_eq h.cut, hnone]
  rfl

theorem literalAt_url {url name rest : List Char} (h : At text cursor past pending (name ++ rest))
    (hboundary : isBoundary (past ++ pending.reverse).getLast? = true)
    (hurl : url? (name ++ rest) = some (url, name)) :
    literalAt text cursor.idx cursor.last
      = .ok (some (literalOf (past ++ pending.reverse) url name)) := by
  rw [h.idx_eq, literalAt_eq h.cut, if_pos hboundary, hurl]

theorem literalAt_email {name left found domain rest : List Char}
    (h : At text cursor past (name ++ left) ('@' :: (domain ++ rest)))
    (hname : (name ++ left).takeWhile isLocalChar = name) (hne : name ≠ [])
    (hdomain : emailDomain? (domain ++ rest) = some domain)
    (hfound : found = name.reverse ++ '@' :: domain) :
    literalAt text cursor.idx cursor.last
      = .ok (some (literalOf (past ++ left.reverse) ("mailto:".toList ++ found) found)) := by
  have hurl : (if isBoundary (past ++ (name ++ left).reverse).getLast? = true
      then url? ('@' :: (domain ++ rest)) else none) = none := by
    rw [url?_at, ite_self]
  rw [h.idx_eq, literalAt_eq h.cut, hurl]
  dsimp only
  rw [if_pos (List.head?_cons ..), ← h.idx_eq, h.idx, h.last, emailAt_eq h.cut hname, if_neg hne,
    hdomain, hfound]
  rfl

theorem literalAt_next {c : Char} {rest : List Char} (h : At text cursor past pending (c :: rest))
    (hurl : isBoundary (past ++ pending.reverse).getLast? = true → url? (c :: rest) = none)
    (hemail : c = '@' → emailDomain? rest = none ∨ pending.takeWhile isLocalChar = []) :
    literalAt text cursor.idx cursor.last = .ok none := by
  have hnone : (if isBoundary (past ++ pending.reverse).getLast? = true
      then url? (c :: rest) else none) = none := by
    split
    next hboundary => exact hurl hboundary
    · rfl
  rw [h.idx_eq, literalAt_eq h.cut, hnone]
  dsimp only
  split
  next hc =>
    rw [List.head?_cons, Option.some.injEq] at hc
    subst hc
    have hpending : pending.takeWhile isLocalChar ++ pending.dropWhile isLocalChar = pending :=
      List.takeWhile_append_dropWhile
    have hat := emailAt_eq (hpending.symm ▸ h.cut) (by rw [hpending])
    rw [hpending] at hat
    rw [← h.idx_eq, h.idx, h.last, hat]
    rcases hemail rfl with hdomain | hlocal
    · rw [hdomain]
      split <;> rfl
    · rw [if_pos hlocal]
  · rfl

/-- **What is found at a place is what a scan of the characters finds there.** -/
theorem outcome {found : List Segment} (h : At text cursor past pending s)
    (hscan : Scan (past ++ pending.reverse).getLast? pending s found) :
    Outcome text cursor past pending s found := by
  cases hscan with
  | done => exact .done h.literalAt_nil
  | @url _ pending url name rest found hboundary hurl hrest =>
    have hne := ne_nil_of_url? hurl
    have hpos := utf8Len_pos hne
    refine .literal (h.literalAt_url hboundary hurl) ?_ hne ?_ hrest
    · rw [h.cut, List.append_assoc _ name]
    · rw [String.utf8Len_append]
      omega
  | @email _ name left text' domain rest found hname hne hdomain htext hrest =>
    have hpos := '@'.utf8Size_pos
    refine .literal (h.literalAt_email hname hne hdomain htext) ?_ ?_ ?_ hrest
    · rw [h.cut, htext]
      simp
    · simp [htext]
    · rw [String.utf8Len_cons, String.utf8Len_append]
      omega
  | next c hurl hemail hrest => exact .next (h.literalAt_next hurl hemail) hrest

/-- A literal that begins behind the last one and ends behind the place. -/
theorem within {left url name rest : List Char} (h : At text cursor past pending s)
    (hcut : text.toList = past ++ left.reverse ++ name ++ rest) (hne : name ≠ [])
    (hshorter : utf8Len rest < utf8Len s) :
    (literalOf (past ++ left.reverse) url name).Within text cursor := by
  have hpos := utf8Len_pos hne
  have hsize := h.size_eq
  rw [utf8ByteSize_eq hcut, String.utf8Len_append] at hsize
  refine ⟨isBorder (by rw [hcut, List.append_assoc]), ?_, ?_, Nat.lt_add_of_pos_right hpos, ?_, ?_⟩
  · rw [literalOf_stop]
    exact isBorder hcut
  · rw [literalOf, h.last, String.utf8Len_append]
    exact Nat.le_add_right _ _
  · rw [literalOf_stop, utf8ByteSize_eq hcut, String.utf8Len_append _ rest]
    exact Nat.le_add_right _ _
  · rw [literalOf_stop]
    omega

/-- **What is found at a place lies within the text.** -/
theorem exists_literalAt (h : At text cursor past pending s) :
    ∃ found, literalAt text cursor.idx cursor.last = .ok found
      ∧ ∀ literal ∈ found, literal.Within text cursor := by
  have houtcome := h.outcome (scan_splitFrom _ _ _)
  generalize splitFrom (past ++ pending.reverse).getLast? pending s = segments at houtcome
  cases houtcome with
  | done hliteral => exact ⟨none, hliteral, fun literal hmem => nomatch hmem⟩
  | next hliteral _ => exact ⟨none, hliteral, fun literal hmem => nomatch hmem⟩
  | literal hliteral hcut hne hshorter _ =>
    refine ⟨_, hliteral, fun literal hmem => ?_⟩
    cases hmem
    exact h.within hcut hne hshorter

/-! ### One round -/

theorem textBetween_eq {left rest : List Char}
    (hcut : text.toList = past ++ left.reverse ++ rest) :
    textBetween text (utf8Len past) (utf8Len (past ++ left.reverse))
      = .ok ((plain left.reverse).map Segment.toNode) := by
  have hslice := slice_eq hcut
  rw [String.utf8Len_append]
  unfold textBetween plain
  by_cases hleft : left.reverse = []
  · rw [hleft]
    simp only [String.utf8Len_nil, Nat.add_zero, Nat.lt_irrefl, if_false]
    rfl
  · have hempty : ¬ left.reverse.isEmpty = true := mt List.isEmpty_iff.mp hleft
    rw [if_pos (Nat.lt_add_of_pos_right (utf8Len_pos hleft)), hslice, if_neg hempty]
    rfl

/-- A round that finds a literal goes on behind it. -/
theorem scanRound_literal {left url name rest : List Char} (h : At text cursor past pending s)
    (hliteral : literalAt text cursor.idx cursor.last
      = .ok (some (literalOf (past ++ left.reverse) url name)))
    (hcut : text.toList = past ++ left.reverse ++ name ++ rest) (hne : name ≠ [])
    (hshorter : utf8Len rest < utf8Len s) :
    ∃ next, scanRound text cursor = .ok (.again next)
      ∧ At text next (past ++ left.reverse ++ name) [] rest
      ∧ next.nodes = cursor.nodes
        ++ (plain left.reverse ++ [Segment.literal url name]).map Segment.toNode := by
  have hsize := h.size_eq
  have hbetween := textBetween_eq (hcut.trans (List.append_assoc ..))
  have hname : slice text (literalOf (past ++ left.reverse) url name).start
      (literalOf (past ++ left.reverse) url name).stop = .ok (String.ofList name) := slice_eq hcut
  refine ⟨⟨_, _, cursor.nodes
    ++ (plain left.reverse ++ [Segment.literal url name]).map Segment.toNode⟩, ?_,
    ⟨?_, rfl, rfl, ?_⟩, rfl⟩
  · unfold scanRound
    rw [if_pos (by omega), hliteral, ok_bind]
    dsimp only
    rw [h.last, hname, literalOf_stop, literalOf, hbetween, ok_bind, List.map_append]
    rfl
  · rw [hcut, List.reverse_nil, List.append_nil]
  · simp [hne]

/-- A round that finds none goes on behind the next character. -/
theorem scanRound_next {c : Char} {rest : List Char} (h : At text cursor past pending (c :: rest))
    (hliteral : literalAt text cursor.idx cursor.last = .ok none) :
    ∃ next, scanRound text cursor = .ok (.again next) ∧ At text next past (c :: pending) rest
      ∧ next.nodes = cursor.nodes := by
  have hpos := c.utf8Size_pos
  have hsize := h.size_eq
  rw [String.utf8Len_cons] at hsize
  have hrest : sliceFrom text cursor.idx = .ok (String.ofList (c :: rest)) := by
    rw [h.idx_eq]
    exact sliceFrom_eq h.cut
  refine ⟨⟨cursor.idx + c.utf8Size, cursor.last, cursor.nodes⟩, ?_, ⟨?_, h.last, ?_, h.nodes⟩, rfl⟩
  · unfold scanRound
    rw [if_pos (by omega), hliteral, ok_bind]
    dsimp only
    rw [hrest, ok_bind, String.toList_ofList]
    rfl
  · rw [h.cut]
    simp
  · show cursor.idx + _ = _
    rw [h.idx, String.utf8Len_cons, Nat.add_assoc]

/-- At the end of the text the rest is plain text, and all of it if there is no literal. -/
theorem scanRound_done (h : At text cursor past pending []) :
    scanRound text cursor = .ok (.over (if cursor.last = 0 then [.text text]
      else cursor.nodes ++ (plain pending.reverse).map Segment.toNode)) := by
  have hsize := h.size_eq
  rw [String.utf8Len_nil, Nat.add_zero] at hsize
  unfold scanRound
  rw [if_neg (by omega)]
  split
  · rfl
  · rw [hsize, h.idx_eq, h.last, textBetween_eq h.cut]
    rfl

/-- A round from a place leads to a place. -/
theorem scanRound_again {next : Cursor} (h : At text cursor past pending s)
    (hround : scanRound text cursor = .ok (.again next)) :
    ∃ past pending s, At text next past pending s := by
  have hagain : ∀ other, scanRound text cursor = .ok (.again other) → next = other := by
    intro other hother
    rw [hround] at hother
    cases hother
    rfl
  have houtcome := h.outcome (scan_splitFrom _ _ _)
  generalize splitFrom (past ++ pending.reverse).getLast? pending s = segments at houtcome
  cases houtcome with
  | done _ =>
    rw [h.scanRound_done] at hround
    cases hround
  | next hliteral _ =>
    obtain ⟨other, hother, hat, -⟩ := h.scanRound_next hliteral
    exact ⟨_, _, _, hagain other hother ▸ hat⟩
  | literal hliteral hcut hne hshorter _ =>
    obtain ⟨other, hother, hat, -⟩ := h.scanRound_literal hliteral hcut hne hshorter
    exact ⟨_, _, _, hagain other hother ▸ hat⟩

end At

/-! ## All rounds -/

/-- The nodes of a scan, and the whole text if there are none. -/
def orWhole (text : String) : List Node → List Node
  | [] => [.text text]
  | node :: nodes => node :: nodes

theorem orWhole_append {text : String} {nodes : List Node} (h : nodes ≠ []) (more : List Node) :
    orWhole text (nodes ++ more) = nodes ++ more := by
  cases nodes with
  | nil => exact absurd rfl h
  | cons node nodes => rfl

theorem orWhole_plain (text : String) :
    orWhole text ((plain text.toList).map Segment.toNode) = [.text text] := by
  unfold plain
  split
  · rfl
  · show [Node.text (String.ofList text.toList)] = _
    rw [String.ofList_toList]

theorem orWhole_splitFrom (text : String) :
    orWhole text ((splitFrom none [] text.toList).map Segment.toNode) = Node.splitText text := by
  unfold Node.splitText split
  cases splitFrom none [] text.toList with
  | nil =>
    show [Node.text text] = [Node.text (String.ofList text.toList)]
    rw [String.ofList_toList]
  | cons segment segments => rfl

/-- The last character of what is in front of a place behind a literal. -/
theorem getLast?_behind {name : List Char} (hne : name ≠ []) (before : List Char) :
    (before ++ name ++ List.reverse []).getLast? = name.getLast? := by
  rw [List.reverse_nil, List.append_nil, List.getLast?_append_of_ne_nil _ hne]

/-- **The loop finds from any place what the scan of the rest does**, within as many rounds as there
are bytes left, and one more. -/
theorem loop_scanRound {text : String} {cursor : Cursor} {past pending s : List Char}
    {found : List Segment} {rounds : Nat} (h : At text cursor past pending s)
    (hscan : Scan (past ++ pending.reverse).getLast? pending s found)
    (hrounds : utf8Len s < rounds) :
    loop (scanRound text) rounds cursor
      = .ok (orWhole text (cursor.nodes ++ found.map Segment.toNode)) := by
  -- Induction on the rounds and not on the scan: a literal leads to a place whose `past` holds all
  -- that was pending, which no rule of `Scan` speaks of.
  induction rounds generalizing cursor past pending s found with
  | zero => omega
  | succ rounds ih =>
    cases h.outcome hscan with
    | done _ =>
      rw [loop_over h.scanRound_done (by omega), h.last]
      by_cases hpast : past = []
      · -- There was no literal: the text is one node, even if it is empty.
        subst hpast
        have hcut : pending.reverse = text.toList := by rw [h.cut, List.append_nil, List.nil_append]
        rw [if_pos String.utf8Len_nil, h.nodes.mpr rfl, List.nil_append, hcut, orWhole_plain]
      · rw [if_neg (mt String.utf8Len_eq_zero.mp hpast), orWhole_append (mt h.nodes.mp hpast)]
    | @next c rest found hliteral hrest =>
      obtain ⟨next, hround, hnext, hnodes⟩ := h.scanRound_next hliteral
      have hpos := c.utf8Size_pos
      rw [String.utf8Len_cons] at hrounds
      rw [loop_again hround (by omega), ← hnodes]
      exact ih hnext (by simpa using hrest) (by omega)
    | @literal left url name s rest found hliteral hcut hne hshorter hrest =>
      obtain ⟨next, hround, hnext, hnodes⟩ := h.scanRound_literal hliteral hcut hne hshorter
      rw [← getLast?_behind hne (past ++ left.reverse)] at hrest
      rw [loop_again hround (by omega), Nat.add_sub_cancel, ih hnext hrest (by omega), hnodes,
        List.append_assoc, ← List.map_append, List.append_assoc, List.singleton_append]

/-- The cursors that a scan comes to. -/
inductive Reaches (text : String) : Cursor → Prop where
  | start : Reaches text .start
  | again {cursor next : Cursor} (h : Reaches text cursor)
    (hround : scanRound text cursor = .ok (.again next)) : Reaches text next

theorem Reaches.exists_at {text : String} {cursor : Cursor} (h : Reaches text cursor) :
    ∃ past pending s, At text cursor past pending s := by
  induction h with
  | start => exact ⟨_, _, _, At.start text⟩
  | again _ hround ih =>
    obtain ⟨past, pending, s, hat⟩ := ih
    exact hat.scanRound_again hround

/-- **No text makes the scan slip.** It ends with the nodes of the text, so that each slice on the
way is there and each loop comes to its end; and what it finds on the way lies within the text. -/
theorem splitText_eq_ok (text : String) :
    splitText text = .ok (Node.splitText text)
      ∧ ∀ cursor, Reaches text cursor → cursor.Placed text
        ∧ ∃ found, literalAt text cursor.idx cursor.last = .ok found
          ∧ ∀ literal ∈ found, literal.Within text cursor := by
  constructor
  · rw [← orWhole_splitFrom]
    apply loop_scanRound (At.start text) (scan_splitFrom none [] text.toList)
    rw [String.utf8Len_toList]
    exact Nat.lt_succ_self _
  · intro cursor hcursor
    obtain ⟨past, pending, s, hat⟩ := hcursor.exists_at
    exact ⟨hat.placed, hat.exists_literalAt⟩

/-- Behind a character of two bytes and a parenthesis, an URL with another such character. -/
theorem splitText_eq_ok_umlaut :
    Reaches "é(www.ä.de" ⟨3, 0, []⟩
      ∧ literalAt "é(www.ä.de" 3 0 = .ok (some ⟨3, 12, "http://www.ä.de"⟩)
      ∧ (⟨3, 12, "http://www.ä.de"⟩ : Literal).Within "é(www.ä.de" ⟨3, 0, []⟩ := by
  have hfirst : scanRound "é(www.ä.de" .start = .ok (.again ⟨2, 0, []⟩) := rfl
  have hsecond : scanRound "é(www.ä.de" ⟨2, 0, []⟩ = .ok (.again ⟨3, 0, []⟩) := rfl
  have hreaches : Reaches "é(www.ä.de" ⟨3, 0, []⟩ := (Reaches.start.again hfirst).again hsecond
  have hliteral : literalAt "é(www.ä.de" 3 0 = .ok (some ⟨3, 12, "http://www.ä.de"⟩) := by
    decide +kernel
  obtain ⟨-, found, hfound, hwithin⟩ := (splitText_eq_ok "é(www.ä.de").2 _ hreaches
  rw [hliteral] at hfound
  cases hfound
  exact ⟨hreaches, hliteral, hwithin _ rfl⟩

end Bracketdown.Link.Offset
