import Bracketdown.Proofs.Link.Slice
import Bracketdown.Proofs.Link.Tail

/-!
# Lengths and literals by byte offsets

Each function of the scan by byte offsets gives the byte lengths of what the function on lists of
characters finds, and none of their slices fails: `addressLength_eq` says so of an address,
`emailAt_eq` of an email address, and `literalAt_eq` of what is found at a byte offset.

The two loops on the way take characters off the end of a text, so they are followed on the text
written backwards (`loop_trimRound`, `loop_dotRound`). All that they take off in one round is a
character of one byte, or a reference down to its `&`. What the first of them leaves of an URL, and
what it takes, `trimmedLength_settles` says.
-/

namespace Bracketdown.Link.Offset

open String (utf8Len)
open Text (isBlank)

/-! ## URLs -/

/-- The byte offset of the reference that a text ends with, from the text written backwards. -/
theorem referenceStart_eq {text : String} {s : List Char} (h : text.toList = (';' :: s).reverse) :
    referenceStart text = .ok ((dropReference? s).map utf8Len) := by
  have hlast : text.toList.getLast? = some ';' := by
    rw [h, List.reverse_cons, List.getLast?_concat]
  have hbody : text.toList.dropLast = s.reverse := by
    rw [h, List.reverse_cons, List.dropLast_concat]
  unfold referenceStart
  rw [if_pos hlast, hbody]
  dsimp only
  by_cases hamp : '&' ∈ s
  · -- What is behind the last ampersand is the name, or there is none.
    obtain ⟨name, rest, rfl, hname⟩ := List.eq_append_cons_of_mem hamp
    have hcut : (String.ofList (name ++ '&' :: rest).reverse).toList
        = rest.reverse ++ '&' :: name.reverse := by
      simp
    have hfind : findLast? (String.ofList (name ++ '&' :: rest).reverse) (· = '&')
        = some (utf8Len rest) := by
      rw [findLast?_eq hcut (by decide), String.utf8Len_reverse]
      intro c hc
      rw [List.mem_reverse] at hc
      exact decide_eq_false fun heq => hname (heq ▸ hc)
    have hslice : sliceFrom (String.ofList (name ++ '&' :: rest).reverse) (utf8Len rest + 1)
        = .ok (String.ofList name.reverse) := by
      have hlen : utf8Len rest + 1 = utf8Len (rest.reverse ++ ['&']) := by
        rw [String.utf8Len_append, String.utf8Len_reverse]
        rfl
      rw [hlen]
      apply sliceFrom_eq
      rw [hcut, List.append_assoc, List.singleton_append]
    have hempty : (String.ofList name.reverse).isEmpty = name.isEmpty := by
      rw [Bool.eq_iff_iff, String.isEmpty_iff, List.isEmpty_iff, String.ofList_eq_empty_iff,
        List.reverse_eq_nil_iff]
    rw [hfind]
    dsimp only
    rw [hslice, ok_bind, hempty, String.toList_ofList, List.all_reverse,
      dropReference?_of_not_mem hname]
    split <;> rfl
  · have hnone : dropReference? s = none := by
      refine Option.eq_none_iff_forall_ne_some.mpr fun rest hrest => hamp ?_
      obtain ⟨name, -, -, rfl⟩ := dropReference?_eq_some.mp hrest
      exact List.mem_append_right name (List.mem_cons_self ..)
    rw [findLast?_eq_none, hnone]
    · rfl
    · intro c hc
      rw [String.toList_ofList, List.mem_reverse] at hc
      exact decide_eq_false fun heq => hamp (heq ▸ hc)

theorem utf8Size_of_isTailPunctuation {c : Char} (h : isTailPunctuation c = true) :
    c.utf8Size = 1 := by
  simp only [isTailPunctuation, Bool.or_eq_true, decide_eq_true_eq] at h
  rcases h with ((((((rfl | rfl) | rfl) | rfl) | rfl) | rfl) | rfl) | rfl <;> rfl

section Backwards

variable {text : String} {c : Char} {s : List Char} {rounds : Nat}

/-- The part of a text that a list is, written backwards. -/
theorem slice_zero_reverse (h : s.reverse <+: text.toList) :
    slice text 0 (utf8Len s) = .ok (String.ofList s.reverse) := by
  rw [← String.utf8Len_reverse]
  exact slice_zero h

theorem getLast?_reverse_cons :
    (String.ofList (c :: s).reverse).toList.getLast? = some c := by
  rw [String.toList_ofList, List.reverse_cons, List.getLast?_concat]

/-- A shorter part of a text, written backwards. -/
theorem reverse_isPrefix {s' : List Char} (h : s.reverse <+: text.toList) (hs : s' <:+ s) :
    s'.reverse <+: text.toList :=
  (List.reverse_prefix.mpr hs).trans h

/-- One round of trimming. -/
theorem trimRound_cons (h : (c :: s).reverse <+: text.toList) :
    trimRound text (utf8Len (c :: s)) = .ok
      (if isTailPunctuation c then .again (utf8Len s)
      else if c = ')' ∧ s.count '(' < s.count ')' + 1 then .again (utf8Len s)
      else if c = ';' then
        match dropReference? s with
        | some s' => .again (utf8Len s')
        | none => .over (utf8Len (c :: s))
      else .over (utf8Len (c :: s))) := by
  have hcount : ∀ d, (String.ofList (c :: s).reverse).toList.count d = (c :: s).count d := by
    intro d
    rw [String.toList_ofList, List.count_reverse]
  unfold trimRound
  rw [slice_zero_reverse h, ok_bind, getLast?_reverse_cons]
  dsimp only
  by_cases hpunctuation : isTailPunctuation c = true
  · have hsize : utf8Len (c :: s) - 1 = utf8Len s := by
      rw [String.utf8Len_cons, utf8Size_of_isTailPunctuation hpunctuation, Nat.add_sub_cancel]
    rw [if_pos hpunctuation, if_pos hpunctuation, hsize]
    rfl
  rw [if_neg hpunctuation, if_neg hpunctuation]
  by_cases hclose : c = ')'
  · subst hclose
    have hsize : utf8Len (')' :: s) - 1 = utf8Len s := Nat.add_sub_cancel ..
    have hsemicolon : ¬ ')' = ';' := by decide
    simp only [hcount, count_close_cons, hsize, true_and, if_neg hsemicolon]
    split <;> rfl
  have hnot : ∀ p : Prop, ¬ (c = ')' ∧ p) := fun p hboth => hclose hboth.1
  rw [if_neg (hnot _), if_neg (hnot _)]
  by_cases hsemicolon : c = ';'
  · subst hsemicolon
    rw [if_pos rfl, if_pos rfl, referenceStart_eq (String.toList_ofList ..), ok_bind]
    cases dropReference? s <;> rfl
  · rw [if_neg hsemicolon, if_neg hsemicolon]
    rfl

/-- **The trimming loop ends where trimming does.** -/
theorem loop_trimRound (h : s.reverse <+: text.toList) (hrounds : utf8Len s < rounds) :
    loop (trimRound text) rounds (utf8Len s) = .ok (utf8Len (trimReversed s)) := by
  -- The bound is in bytes: a round takes off a character or a reference, and neither is empty.
  fun_induction trimReversed s generalizing rounds with
  | case1 =>
    refine loop_over ?_ (by omega)
    unfold trimRound
    rw [slice_zero_reverse h]
    rfl
  | case2 c s hc ih =>
    have hsize := c.utf8Size_pos
    rw [String.utf8Len_cons] at hrounds
    rw [loop_again (by rw [trimRound_cons h, if_pos hc]) (by omega)]
    exact ih (reverse_isPrefix h (List.suffix_cons c s)) (by omega)
  | case3 c s hc hclose ih =>
    have hsize := c.utf8Size_pos
    rw [String.utf8Len_cons] at hrounds
    rw [loop_again (by rw [trimRound_cons h, if_neg hc, if_pos hclose]) (by omega)]
    exact ih (reverse_isPrefix h (List.suffix_cons c s)) (by omega)
  | case4 s s' hdrop hc hclose ih =>
    have hsuffix := isSuffix_of_dropReference? hdrop
    have hsize := String.utf8Len_le_of_suffix hsuffix
    have hpos := ';'.utf8Size_pos
    rw [String.utf8Len_cons] at hrounds
    rw [loop_again (by rw [trimRound_cons h, if_neg hc, if_neg hclose, if_pos rfl, hdrop])
      (by omega)]
    exact ih (reverse_isPrefix h (hsuffix.trans (List.suffix_cons ';' s))) (by omega)
  | case5 s hdrop hc hclose =>
    refine loop_over ?_ (by omega)
    rw [trimRound_cons h, if_neg hc, if_neg hclose, if_pos rfl, hdrop]
  | case6 c s hc hclose hsemicolon =>
    refine loop_over ?_ (by omega)
    rw [trimRound_cons h, if_neg hc, if_neg hclose, if_neg hsemicolon]

/-- **The loop over dots ends where the dots do.** -/
theorem loop_dotRound (h : s.reverse <+: text.toList) (hrounds : utf8Len s < rounds) :
    loop (dotRound text) rounds (utf8Len s) = .ok (utf8Len (s.dropWhile (· = '.'))) := by
  induction s generalizing rounds with
  | nil =>
    refine loop_over ?_ (by omega)
    unfold dotRound
    rw [slice_zero_reverse h]
    rfl
  | cons c s ih =>
    have hround : dotRound text (utf8Len (c :: s))
        = .ok (if c = '.' then .again (utf8Len (c :: s) - 1) else .over (utf8Len (c :: s))) := by
      unfold dotRound
      rw [slice_zero_reverse h, ok_bind, getLast?_reverse_cons]
      simp only [Option.some.injEq]
      rfl
    by_cases hc : c = '.'
    · subst hc
      have hsize : utf8Len ('.' :: s) = utf8Len s + 1 := rfl
      rw [hsize] at hround hrounds
      rw [hsize, loop_again (by rw [hround, if_pos rfl]) (by omega),
        List.dropWhile_cons_of_pos rfl]
      exact ih (reverse_isPrefix h (List.suffix_cons '.' s)) (by omega)
    · rw [loop_over (by rw [hround, if_neg hc]) (by omega),
        List.dropWhile_cons_of_neg (by simp [hc])]

end Backwards

theorem trimmedLength_eq (url : String) :
    trimmedLength url = .ok (utf8Len (trimTail url.toList)) := by
  have hloop : loop (trimRound url) (url.utf8ByteSize + 1) (utf8Len url.toList.reverse)
      = .ok (utf8Len (trimReversed url.toList.reverse)) := by
    apply loop_trimRound
    · exact ⟨[], by rw [List.append_nil, List.reverse_reverse]⟩
    · rw [String.utf8Len_reverse, String.utf8Len_toList]
      exact Nat.lt_succ_self _
  rw [String.utf8Len_reverse, String.utf8Len_toList] at hloop
  rw [trimTail, String.utf8Len_reverse]
  exact hloop

/-- **Trimming comes to an end, and there to a rest.** Of every URL it keeps what is in front of a
border. Nothing more may be cut off that, and trimming it once more gives it back whole; and what is
cut off is, read from the right, punctuation, closing parentheses in excess, and references. There
is no other cut of which all this is true. -/
theorem trimmedLength_settles (url : String) :
    ∃ length, trimmedLength url = .ok length ∧ length ≤ url.utf8ByteSize
      ∧ ∃ kept tail, slice url 0 length = .ok kept ∧ sliceFrom url length = .ok tail
        ∧ Settled kept.toList ∧ Shed kept.toList tail.toList
        ∧ trimmedLength kept = .ok length
        ∧ ∀ kept' tail', url = kept' ++ tail' → Settled kept'.toList →
          Shed kept'.toList tail'.toList → kept' = kept := by
  have hunique : ∀ kept' tail', url = kept' ++ tail' → Settled kept'.toList →
      Shed kept'.toList tail'.toList → kept' = String.ofList (trimTail url.toList) := by
    intro kept' tail' hcut hsettled hshed
    have htrim : trimTail url.toList = kept'.toList :=
      trimTail_eq_iff.mpr ⟨hsettled, tail'.toList, by rw [hcut, String.toList_append], hshed⟩
    rw [htrim, String.ofList_toList]
  obtain ⟨tail, hcut, hshed⟩ := shed_trimTail url.toList
  have hsettled := settled_trimTail url.toList
  have hslice := slice_zero (trimTail_isPrefix url.toList)
  have hlength := trimmedLength_eq url
  generalize trimTail url.toList = kept at hunique hcut hshed hsettled hslice hlength
  refine ⟨utf8Len kept, hlength, ?_, String.ofList kept, String.ofList tail, hslice,
    sliceFrom_eq hcut, ?_, ?_, ?_, hunique⟩
  · rw [utf8ByteSize_eq hcut, String.utf8Len_append]
    exact Nat.le_add_right _ _
  · rw [String.toList_ofList]
    exact hsettled
  · rw [String.toList_ofList, String.toList_ofList]
    exact hshed
  · rw [trimmedLength_eq, String.toList_ofList, hsettled.trimTail_eq]

/-- A reference that is cut off bares a parenthesis, which bares a reference, which bares a dot. -/
example : trimmedLength "www.a.b.&lt;)&gt;" = .ok 7 := by decide +kernel

theorem addressLength_eq (text : String) :
    addressLength text = .ok ((address? text.toList).map utf8Len) := by
  have hreach : (find? text fun c => isBlank c || c = '<').getD text.utf8ByteSize
      = utf8Len (text.toList.takeWhile fun c => !(isBlank c || c = '<')) := find?_getD ..
  have hprefix : (text.toList.takeWhile fun c => !(isBlank c || c = '<')) <+: text.toList :=
    List.takeWhile_prefix _
  have htrim := (trimTail_isPrefix _).trans hprefix
  unfold addressLength address?
  dsimp only
  rw [hreach, slice_zero hprefix, ok_bind, trimmedLength_eq, ok_bind, String.toList_ofList]
  generalize trimTail (text.toList.takeWhile fun c => !(isBlank c || c = '<')) = found at *
  have hhost := find?_getD (String.ofList found) endsHost
  have hpart : (found.takeWhile fun c => !endsHost c) <+: (String.ofList found).toList := by
    rw [String.toList_ofList]
    exact List.takeWhile_prefix _
  rw [String.utf8ByteSize_ofList, String.toList_ofList] at hhost
  rw [slice_zero htrim, ok_bind, hhost, slice_zero hpart, ok_bind, String.toList_ofList]
  split <;> rfl

/-! ## Literals -/

/-- A literal with some text in front of it. -/
def literalOf (before url text : List Char) : Literal :=
  ⟨utf8Len before, utf8Len before + utf8Len text, String.ofList url⟩

theorem literalOf_stop (before url text : List Char) :
    (literalOf before url text).stop = utf8Len (before ++ text) :=
  (String.utf8Len_append ..).symm

theorem ofList_toList_append (lead : String) (s : List Char) :
    String.ofList (lead.toList ++ s) = lead ++ String.ofList s := by
  rw [String.ofList_append, String.ofList_toList]

theorem schemeAt_eq {text : String} {a s scheme : List Char} (h : text.toList = a ++ s)
    (hstart : startsWithFold scheme s = true) :
    schemeAt text (utf8Len a) (String.ofList s) scheme
      = .ok ((address? (s.drop scheme.length)).map fun found =>
          literalOf a (s.take scheme.length ++ found) (s.take scheme.length ++ found)) := by
  -- The scheme may be in other letters in the text, but they have the length of its own.
  have hskipped : (String.ofList scheme).utf8ByteSize = utf8Len (s.take scheme.length) := by
    rw [String.utf8ByteSize_ofList, ← utf8Len_map_toLower (s.take _), List.map_take,
      ← List.prefix_iff_eq_take.mp (startsWithFold_iff.mp hstart)]
  have hrest : sliceFrom (String.ofList s) (utf8Len (s.take scheme.length))
      = .ok (String.ofList (s.drop scheme.length)) := by
    apply sliceFrom_eq
    rw [String.toList_ofList, List.take_append_drop]
  unfold schemeAt
  dsimp only
  rw [hskipped, hrest, ok_bind, addressLength_eq, ok_bind, String.toList_ofList]
  cases haddress : address? (s.drop scheme.length) with
  | none => rfl
  | some found =>
    obtain ⟨more, hmore⟩ := isPrefix_of_address? haddress
    have hcut : text.toList = a ++ (s.take scheme.length ++ found) ++ more := by
      rw [h, List.append_assoc, List.append_assoc, hmore, List.take_append_drop]
    have hstop : utf8Len a + utf8Len (s.take scheme.length) + utf8Len found
        = utf8Len a + utf8Len (s.take scheme.length ++ found) := by
      rw [String.utf8Len_append, Nat.add_assoc]
    rw [Option.map_some]
    dsimp only
    rw [hstop, slice_eq hcut]
    rfl

theorem bareAt_eq {text : String} {a s : List Char} (h : text.toList = a ++ s) :
    bareAt text (utf8Len a) (String.ofList s)
      = .ok ((address? s).map fun found => literalOf a ("http://".toList ++ found) found) := by
  unfold bareAt
  rw [addressLength_eq, ok_bind, String.toList_ofList]
  cases haddress : address? s with
  | none => rfl
  | some found =>
    obtain ⟨more, hmore⟩ := isPrefix_of_address? haddress
    have hcut : text.toList = a ++ found ++ more := by rw [h, List.append_assoc, hmore]
    rw [Option.map_some]
    dsimp only
    rw [slice_eq hcut, ok_bind, Option.map_some, literalOf, ofList_toList_append]
    rfl

theorem emailDomain?_eq (s : List Char) :
    emailDomain? s = if isEmailDomain (emailReach s) then some (emailReach s) else none := by
  unfold emailDomain? isEmailDomain
  dsimp only
  rw [← emailReach]
  split
  next h => rw [h]; rfl
  next h => rw [Bool.not_eq_true] at h; rw [h]; rfl

/-- The local part of an email address begins where the search back from the `@` stops. -/
theorem findTail?_local {name left : List Char}
    (hname : (name ++ left).takeWhile isLocalChar = name) :
    findTail? (String.ofList (name ++ left).reverse) isLocalChar
      = if name = [] then none else some (utf8Len left) := by
  have hall : ∀ c ∈ name, isLocalChar c = true := by
    rw [← hname]
    exact List.all_eq_true.mp List.all_takeWhile
  have hleft : left.takeWhile isLocalChar = [] := by
    rw [List.takeWhile_append_of_pos hall] at hname
    exact List.append_right_eq_self.mp hname
  have hcut : (String.ofList (name ++ left).reverse).toList = left.reverse ++ name.reverse := by
    rw [String.toList_ofList, List.reverse_append]
  rw [findTail?_eq hcut, String.utf8Len_reverse]
  · simp only [List.reverse_eq_nil_iff]
  · exact fun c hc => hall c (List.mem_reverse.mp hc)
  · intro c hc
    rw [List.getLast?_reverse] at hc
    cases left with
    | nil => cases hc
    | cons d left =>
      cases hc
      by_contra hlocal
      rw [Bool.not_eq_false] at hlocal
      rw [List.takeWhile_cons, hlocal, if_pos rfl] at hleft
      cases hleft

/-- The email address around an `@`. Between the last literal and the sign there are `left` and
`name`, both written backwards, and `name` is the local part. -/
theorem emailAt_eq {text : String} {a name left rest : List Char}
    (h : text.toList = a ++ (name ++ left).reverse ++ '@' :: rest)
    (hname : (name ++ left).takeWhile isLocalChar = name) :
    emailAt text (utf8Len a + utf8Len (name ++ left)) (utf8Len a)
      = .ok (if name = [] then none else (emailDomain? rest).map fun domain =>
          literalOf (a ++ left.reverse) ("mailto:".toList ++ (name.reverse ++ '@' :: domain))
            (name.reverse ++ '@' :: domain)) := by
  have hbefore : slice text (utf8Len a) (utf8Len a + utf8Len (name ++ left))
      = .ok (String.ofList (name ++ left).reverse) := by
    rw [← String.utf8Len_reverse (name ++ left)]
    exact slice_eq h
  unfold emailAt
  rw [hbefore, ok_bind, findTail?_local hname]
  by_cases hne : name = []
  · -- Without a local part nothing behind the sign is looked at.
    rw [if_pos hne, if_pos hne]
    rfl
  rw [if_neg hne, if_neg hne]
  dsimp only
  have hafter : sliceFrom text (utf8Len a + utf8Len (name ++ left) + 1)
      = .ok (String.ofList rest) := by
    have hcut : text.toList = (a ++ (name ++ left).reverse ++ ['@']) ++ rest := by
      rw [h, List.append_assoc _ ['@'], List.singleton_append]
    have hslice := sliceFrom_eq hcut
    rwa [String.utf8Len_append, String.utf8Len_append, String.utf8Len_reverse] at hslice
  have hreach : (find? (String.ofList rest) fun c => !isEmailDomainChar c).getD
      (String.ofList rest).utf8ByteSize = utf8Len (rest.takeWhile isEmailDomainChar).reverse := by
    rw [find?_getD, String.toList_ofList, String.utf8Len_reverse]
    simp only [Bool.not_not]
  have hloop : loop (dotRound (String.ofList rest)) ((String.ofList rest).utf8ByteSize + 1)
      (utf8Len (rest.takeWhile isEmailDomainChar).reverse) = .ok (utf8Len (emailReach rest)) := by
    rw [emailReach, String.utf8Len_reverse (List.dropWhile ..)]
    apply loop_dotRound
    · rw [String.toList_ofList, List.reverse_reverse]
      exact List.takeWhile_prefix _
    · rw [String.utf8Len_reverse, String.utf8ByteSize_ofList]
      exact Nat.lt_succ_of_le (String.utf8Len_le_of_prefix (List.takeWhile_prefix _))
  have hprefix : emailReach rest <+: (String.ofList rest).toList := by
    rw [String.toList_ofList]
    exact emailReach_isPrefix rest
  rw [hafter, ok_bind, hreach, hloop, ok_bind, slice_zero hprefix, ok_bind, String.toList_ofList,
    emailDomain?_eq]
  by_cases hdomain : isEmailDomain (emailReach rest) = true
  · obtain ⟨more, hmore⟩ := emailReach_isPrefix rest
    have hcut : text.toList
        = (a ++ left.reverse) ++ (name.reverse ++ '@' :: emailReach rest) ++ more := by
      simp [h, hmore]
    have hstart : utf8Len a + utf8Len left = utf8Len (a ++ left.reverse) := by
      rw [String.utf8Len_append, String.utf8Len_reverse]
    have hstop : utf8Len a + utf8Len (name ++ left) + 1 + utf8Len (emailReach rest)
        = utf8Len (a ++ left.reverse) + utf8Len (name.reverse ++ '@' :: emailReach rest) := by
      have hat : '@'.utf8Size = 1 := rfl
      simp only [String.utf8Len_append, String.utf8Len_reverse, String.utf8Len_cons, hat]
      omega
    rw [if_pos hdomain, if_pos hdomain, Option.map_some, hstart, hstop, slice_eq hcut, ok_bind,
      literalOf, ofList_toList_append]
    rfl
  · rw [if_neg hdomain, if_neg hdomain]
    rfl

/-- No `@` is where an URL starts. -/
theorem head?_ne_at {start s : List Char} (hstart : start ∈ bareStart :: schemes)
    (h : startsWithFold start s = true) : s.head? ≠ some '@' := by
  have hletter : ∃ c cs, start = c :: cs ∧ c ≠ '@' := by
    have hall : (bareStart :: schemes).all (fun start => start.head?.any (· ≠ '@')) = true := by
      decide
    have hthis := List.all_eq_true.mp hall start hstart
    cases start with
    | nil => cases hthis
    | cons c cs => exact ⟨c, cs, rfl, of_decide_eq_true hthis⟩
  obtain ⟨c, cs, rfl, hc⟩ := hletter
  obtain ⟨d, ds, rfl, hd⟩ := exists_cons_of_startsWithFold h
  intro hat
  rw [List.head?_cons, Option.some.injEq] at hat
  rw [hat] at hd
  exact hc hd.symm

/-- What is found at a byte offset is an URL, if there is one, and else an email address. -/
theorem literalAt_eq {text : String} {a s : List Char} (h : text.toList = a ++ s) (last : Nat) :
    literalAt text (utf8Len a) last
      = match if isBoundary a.getLast? then url? s else none with
        | some (url, found) => .ok (some (literalOf a url found))
        | none => if s.head? = some '@' then emailAt text (utf8Len a) last else .ok none := by
  have hboundary : atBoundary text (utf8Len a) = .ok (isBoundary a.getLast?) := by
    unfold atBoundary
    rw [slice_zero (h ▸ List.prefix_append a s), ok_bind, String.toList_ofList]
    rfl
  have htext : (String.ofList s).toList = s := String.toList_ofList
  have hscheme : schemes.find? (startsWith (String.ofList s))
      = schemes.find? fun scheme => startsWithFold scheme s := by
    simp only [schemes, List.find?]
    rw [startsWith_eq _ (by decide), startsWith_eq _ (by decide), htext]
  have hbare : startsWith (String.ofList s) bareStart = startsWithFold bareStart s := by
    rw [startsWith_eq _ (by decide), htext]
  unfold literalAt
  rw [sliceFrom_eq h, ok_bind, hboundary, ok_bind, htext, hscheme, hbare]
  by_cases hb : isBoundary a.getLast? = true
  · rw [if_pos hb, if_pos hb, hb, Bool.true_and]
    unfold url?
    cases hfind : schemes.find? fun scheme => startsWithFold scheme s with
    | some scheme =>
      have hstart : startsWithFold scheme s = true :=
        List.find?_some (p := fun scheme => startsWithFold scheme s) hfind
      have hmem := List.mem_cons_of_mem bareStart (List.mem_of_find?_eq_some hfind)
      dsimp only
      rw [schemeAt_eq h hstart]
      -- Without an address the search is over here. The list goes on to look for an `@`, in vain.
      cases address? (s.drop scheme.length) with
      | none => exact (if_neg (head?_ne_at hmem hstart)).symm
      | some found => rfl
    | none =>
      dsimp only
      by_cases hstart : startsWithFold bareStart s = true
      · rw [if_pos hstart, if_pos hstart, bareAt_eq h]
        cases address? s with
        | none => exact (if_neg (head?_ne_at (List.mem_cons_self ..) hstart)).symm
        | some found => rfl
      · rw [if_neg hstart, if_neg hstart]
        rfl
  · rw [if_neg hb, if_neg hb, Bool.eq_false_iff.mpr hb]
    rfl

end Bracketdown.Link.Offset
