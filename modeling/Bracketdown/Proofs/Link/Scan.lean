import Bracketdown.Link.Literal

/-!
# How a text is scanned for literals

`splitFrom` goes through a text once, and looks at each place for an address or, at an `@`, for the
two sides of an email address. `Scan` writes down what it may do there, one constructor for each of
the four outcomes, with the text cut where the scan cuts it; `scan_splitFrom` says that it does
nothing else. What holds of all literals is proved by induction on `Scan`, and none of the tests
that find a literal has to be opened for it again.

Two facts are of that sort. Nothing gets lost: the segments, read in order, are the text
(`flatMap_text_split`). And no literal begins with a sign or a blank: an address begins with the
letters it is found by, and the local part of an email address has letters, digits and a few signs
that all may stand in it (`exists_cons_of_mem_split`).
-/

namespace Bracketdown.Link

/-! ## Addresses -/

theorem isSuffix_of_dropReference? {s rest : List Char} (h : dropReference? s = some rest) :
    rest <:+ s := by
  unfold dropReference? at h
  split at h
  next hdrop =>
    cases h
    have hsuffix := List.dropWhile_suffix (l := s) Char.isAlphanum
    rw [hdrop] at hsuffix
    exact (List.suffix_cons '&' rest).trans hsuffix
  · cases h

theorem trimReversed_isSuffix (s : List Char) : trimReversed s <:+ s := by
  fun_induction trimReversed s with
  | case1 => exact List.suffix_refl []
  | case2 c rest _ ih => exact ih.trans (List.suffix_cons c rest)
  | case3 c rest _ _ ih => exact ih.trans (List.suffix_cons c rest)
  | case4 rest rest' hdrop _ _ ih =>
    exact (ih.trans (isSuffix_of_dropReference? hdrop)).trans (List.suffix_cons ';' rest)
  | case5 => exact List.suffix_refl _
  | case6 => exact List.suffix_refl _

/-- Trimming takes away from the end. -/
theorem trimTail_isPrefix (s : List Char) : trimTail s <+: s := by
  rw [← List.reverse_suffix, trimTail, List.reverse_reverse]
  exact trimReversed_isSuffix s.reverse

theorem address?_eq_some {s found : List Char} (h : address? s = some found) :
    found = trimTail (s.takeWhile fun c => !(Text.isBlank c || c = '<'))
      ∧ isDomain (found.takeWhile fun c => !endsHost c) = true := by
  unfold address? at h
  dsimp only at h
  split at h
  next hdomain =>
    cases h
    exact ⟨rfl, hdomain⟩
  · cases h

theorem isPrefix_of_address? {s found : List Char} (h : address? s = some found) :
    found <+: s := by
  rw [(address?_eq_some h).1]
  exact (trimTail_isPrefix _).trans (List.takeWhile_prefix _)

/-- An address has a host. -/
theorem ne_nil_of_address? {s found : List Char} (h : address? s = some found) : found ≠ [] := by
  rintro rfl
  have hdomain := (address?_eq_some h).2
  cases hdomain

/-- The two ways in which an URL is found: behind a scheme, or by the start of its host. -/
theorem url?_eq_some {s url text : List Char} (h : url? s = some (url, text)) :
    (∃ scheme ∈ schemes, startsWithFold scheme s = true ∧ ∃ found,
      address? (s.drop scheme.length) = some found ∧ text = s.take scheme.length ++ found
        ∧ url = text)
    ∨ (startsWithFold bareStart s = true ∧ address? s = some text
        ∧ url = "http://".toList ++ text) := by
  unfold url? at h
  split at h
  next scheme hscheme =>
    have hstart : startsWithFold scheme s = true :=
      List.find?_some (p := fun scheme => startsWithFold scheme s) hscheme
    obtain ⟨found, hfound, heq⟩ := Option.bind_eq_some_iff.mp h
    cases heq
    exact .inl ⟨scheme, List.mem_of_find?_eq_some hscheme, hstart, found, hfound,
      rfl, rfl⟩
  · split at h
    next hstart =>
      obtain ⟨found, hfound, heq⟩ := Option.bind_eq_some_iff.mp h
      cases heq
      exact .inr ⟨hstart, hfound, rfl⟩
    · cases h

/-- An URL is found as the text in front of what follows it. -/
theorem isPrefix_of_url? {s url text : List Char} (h : url? s = some (url, text)) :
    text <+: s := by
  rcases url?_eq_some h with ⟨scheme, -, -, found, hfound, rfl, -⟩ | ⟨-, hfound, -⟩
  · obtain ⟨rest, hrest⟩ := isPrefix_of_address? hfound
    refine ⟨rest, ?_⟩
    rw [List.append_assoc, hrest, List.take_append_drop]
  · exact isPrefix_of_address? hfound

theorem exists_cons_of_startsWithFold {c : Char} {cs s : List Char}
    (h : startsWithFold (c :: cs) s = true) : ∃ d ds, s = d :: ds ∧ d.toLower = c := by
  cases s with
  | nil => cases h
  | cons d ds =>
    rw [startsWithFold, Bool.and_eq_true, decide_eq_true_iff] at h
    exact ⟨d, ds, rfl, h.1⟩

/-- An URL begins with the first letter of a scheme or of `www`. -/
theorem exists_cons_of_url? {s url text : List Char} (h : url? s = some (url, text)) :
    ∃ c cs, text = c :: cs ∧ (c.toLower = 'h' ∨ c.toLower = 'w') := by
  rcases url?_eq_some h with ⟨scheme, hscheme, hstart, found, -, rfl, -⟩ | ⟨hstart, hfound, -⟩
  · have hletter : ∃ cs, scheme = 'h' :: cs := by
      rcases List.mem_cons.mp hscheme with rfl | hscheme
      · exact ⟨_, rfl⟩
      · rw [List.mem_singleton.mp hscheme]
        exact ⟨_, rfl⟩
    obtain ⟨cs, rfl⟩ := hletter
    obtain ⟨d, ds, rfl, hd⟩ := exists_cons_of_startsWithFold hstart
    exact ⟨d, _, rfl, .inl hd⟩
  · obtain ⟨d, ds, rfl, hd⟩ := exists_cons_of_startsWithFold hstart
    obtain ⟨rest, hrest⟩ := isPrefix_of_address? hfound
    cases text with
    | nil => exact absurd rfl (ne_nil_of_address? hfound)
    | cons c cs =>
      rw [List.cons_append, List.cons.injEq] at hrest
      rw [hrest.1]
      exact ⟨d, cs, rfl, .inr hd⟩

theorem ne_nil_of_url? {s url text : List Char} (h : url? s = some (url, text)) : text ≠ [] := by
  obtain ⟨c, cs, rfl, -⟩ := exists_cons_of_url? h
  exact List.cons_ne_nil c cs

/-- No URL starts with the sign of an email address. -/
theorem url?_at (rest : List Char) : url? ('@' :: rest) = none := by
  refine Option.eq_none_iff_forall_ne_some.mpr fun ⟨url, text⟩ hurl => ?_
  obtain ⟨c, cs, rfl, hc⟩ := exists_cons_of_url? hurl
  obtain ⟨more, hmore⟩ := isPrefix_of_url? hurl
  rw [List.cons_append, List.cons.injEq] at hmore
  rw [hmore.1] at hc
  exact absurd hc (by decide)

/-- The start of a text that is taken for the domain of an email address, if it is one. -/
def emailReach (s : List Char) : List Char :=
  ((s.takeWhile isEmailDomainChar).reverse.dropWhile (· = '.')).reverse

theorem emailReach_isPrefix (s : List Char) : emailReach s <+: s := by
  refine List.IsPrefix.trans ?_ (List.takeWhile_prefix isEmailDomainChar)
  rw [emailReach, ← List.reverse_suffix, List.reverse_reverse]
  exact List.dropWhile_suffix _

theorem isPrefix_of_emailDomain? {s domain : List Char} (h : emailDomain? s = some domain) :
    domain <+: s := by
  unfold emailDomain? at h
  dsimp only at h
  split at h
  · cases h
  · cases h
    exact emailReach_isPrefix s

/-! ## The scan -/

/-- What may happen in a scan of a text, behind a character and with plain text pending (last
character first), and the segments that come of it. -/
inductive Scan : Option Char → List Char → List Char → List Segment → Prop where
  /-- The text is at its end. -/
  | done {before : Option Char} {pending : List Char} :
    Scan before pending [] (plain pending.reverse)
  /-- An URL starts here. -/
  | url {before : Option Char} {pending url text rest : List Char} {found : List Segment}
    (hboundary : isBoundary before = true) (hurl : url? (text ++ rest) = some (url, text))
    (hrest : Scan text.getLast? [] rest found) :
    Scan before pending (text ++ rest) (plain pending.reverse ++ .literal url text :: found)
  /-- The `@` of an email address is here, and its local part ends what is pending. -/
  | email {before : Option Char} {name pending text domain rest : List Char}
    {found : List Segment} (hname : (name ++ pending).takeWhile isLocalChar = name)
    (hne : name ≠ []) (hdomain : emailDomain? (domain ++ rest) = some domain)
    (htext : text = name.reverse ++ '@' :: domain) (hrest : Scan text.getLast? [] rest found) :
    Scan before (name ++ pending) ('@' :: (domain ++ rest))
      (plain pending.reverse ++ .literal ("mailto:".toList ++ text) text :: found)
  /-- No literal is found by this character. -/
  | next {before : Option Char} {pending rest : List Char} {found : List Segment} (c : Char)
    (hurl : isBoundary before = true → url? (c :: rest) = none)
    (hemail : c = '@' → emailDomain? rest = none ∨ pending.takeWhile isLocalChar = [])
    (hrest : Scan (some c) (c :: pending) rest found) : Scan before pending (c :: rest) found

theorem append_drop_of_isPrefix {α : Type} {xs ys : List α} (h : xs <+: ys) :
    xs ++ ys.drop xs.length = ys := by
  obtain ⟨zs, rfl⟩ := h
  rw [List.drop_left]

theorem eq_some_of_dite {α : Type} {P : Prop} [Decidable P] {x : Option α} {a : α}
    (h : (if _ : P then x else none) = some a) : P ∧ x = some a := by
  split at h
  next hP => exact ⟨hP, h⟩
  · cases h

theorem eq_none_of_dite {α : Type} {P : Prop} [Decidable P] {x : Option α}
    (h : (if _ : P then x else none) = none) (hP : P) : x = none := by
  rw [dif_pos hP] at h
  exact h

/-- **The scan does nothing else.** -/
theorem scan_splitFrom (before : Option Char) (pending s : List Char) :
    Scan before pending s (splitFrom before pending s) := by
  fun_induction splitFrom before pending s with
  | case1 => exact .done
  | case2 before pending c rest url text hurl ih =>
    obtain ⟨hboundary, hurl⟩ := eq_some_of_dite hurl
    have hcut : text ++ rest.drop (text.length - 1) = c :: rest := by
      have happend := append_drop_of_isPrefix (isPrefix_of_url? hurl)
      obtain ⟨d, ds, rfl, -⟩ := exists_cons_of_url? hurl
      exact happend
    rw [← hcut] at hurl ⊢
    exact .url hboundary hurl ih
  | case3 before pending c rest hurl domain hemail hlocal ih =>
    exact .next c (eq_none_of_dite hurl) (fun _ => .inr hlocal) ih
  | case4 before pending c rest hurl domain hemail hlocal text ih =>
    obtain ⟨rfl, hdomain⟩ := eq_some_of_dite hemail
    have hname := append_drop_of_isPrefix (List.takeWhile_prefix (l := pending) isLocalChar)
    have hcut := append_drop_of_isPrefix (isPrefix_of_emailDomain? hdomain)
    have hscan := @Scan.email before (pending.takeWhile isLocalChar)
      (pending.drop (pending.takeWhile isLocalChar).length) text domain (rest.drop domain.length) _
      (by rw [hname]) hlocal (by rw [hcut]; exact hdomain) rfl ih
    rw [hname, hcut] at hscan
    exact hscan
  | case5 before pending c rest hurl hemail ih =>
    exact .next c (eq_none_of_dite hurl) (fun hc => .inl (eq_none_of_dite hemail hc)) ih

/-- Nothing else is a scan: what may happen at each place excludes the other outcomes. -/
theorem Scan.eq_splitFrom {before : Option Char} {pending s : List Char} {found : List Segment}
    (h : Scan before pending s found) : found = splitFrom before pending s := by
  induction h with
  | done => rw [splitFrom]
  | @url before pending url text rest found hboundary hurl _ ih =>
    obtain ⟨c, cs, rfl, -⟩ := exists_cons_of_url? hurl
    rw [List.cons_append] at hurl ⊢
    rw [splitFrom]
    simp [hboundary, hurl, ih]
  | @email before name pending text domain rest found hname hne hdomain htext _ ih =>
    rw [splitFrom]
    simp only [url?_at, ite_self, if_true, hdomain, hname]
    cases name with
    | nil => exact absurd rfl hne
    | cons c name =>
      simp [ih, htext]
  | @next before pending rest found c hurl hemail _ ih =>
    have hnone : (if isBoundary before = true then url? (c :: rest) else none) = none := by
      by_cases hboundary : isBoundary before = true
      · rw [if_pos hboundary, hurl hboundary]
      · rw [if_neg hboundary]
    rw [splitFrom, hnone]
    by_cases hc : c = '@'
    · rcases hemail hc with hdomain | hlocal
      · simp [hdomain, ih]
      · rw [if_pos hc]
        cases emailDomain? rest with
        | none => simp [ih]
        | some domain => simp [hlocal, ih]
    · simp [hc, ih]

/-! ## What comes of it -/

/-- The text of a segment. -/
def Segment.text : Segment → List Char
  | .plain text => text
  | .literal _ text => text

/-- The sort of character that a literal begins with. -/
def startsLiteral (c : Char) : Bool := c.toLower = 'h' || c.toLower = 'w' || isLocalChar c

theorem flatMap_text_plain (text : List Char) : (plain text).flatMap Segment.text = text := by
  unfold plain
  split
  next hempty => rw [List.isEmpty_iff.mp hempty]; rfl
  · exact List.append_nil text

theorem not_mem_plain {url text pending : List Char} :
    Segment.literal url text ∉ plain pending := by
  unfold plain
  split
  · exact List.not_mem_nil
  · intro h
    cases List.mem_singleton.mp h

namespace Scan

variable {before : Option Char} {pending s : List Char} {found : List Segment}

/-- The segments hold what was pending and what was scanned. -/
theorem flatMap_text (h : Scan before pending s found) :
    found.flatMap Segment.text = pending.reverse ++ s := by
  induction h with
  | done => rw [flatMap_text_plain, List.append_nil]
  | url _ _ _ ih =>
    rw [List.flatMap_append, flatMap_text_plain, List.flatMap_cons, ih]
    rfl
  | @email before name pending text domain rest found _ _ _ htext _ ih =>
    rw [List.flatMap_append, flatMap_text_plain, List.flatMap_cons, ih, htext]
    simp [Segment.text]
  | next c _ _ _ ih =>
    rw [ih, List.reverse_cons, List.append_assoc, List.singleton_append]

theorem exists_cons (h : Scan before pending s found) {url text : List Char}
    (hmem : Segment.literal url text ∈ found) : ∃ c cs, text = c :: cs ∧ startsLiteral c = true := by
  induction h with
  | done => exact absurd hmem not_mem_plain
  | url hboundary hurl _ ih =>
    rcases List.mem_append.mp hmem with hmem | hmem
    · exact absurd hmem not_mem_plain
    · rcases List.mem_cons.mp hmem with heq | hmem
      · cases heq
        obtain ⟨c, cs, htext, hc⟩ := exists_cons_of_url? hurl
        refine ⟨c, cs, htext, ?_⟩
        rcases hc with hc | hc <;> simp [startsLiteral, hc]
      · exact ih hmem
  | @email before name pending text' domain rest found hname hne _ htext _ ih =>
    rcases List.mem_append.mp hmem with hmem | hmem
    · exact absurd hmem not_mem_plain
    · rcases List.mem_cons.mp hmem with heq | hmem
      · cases heq
        obtain ⟨c, cs, hreverse⟩ := List.exists_cons_of_ne_nil (mt List.reverse_eq_nil_iff.mp hne)
        have hc : c ∈ name := by
          rw [← List.mem_reverse, hreverse]
          exact List.mem_cons_self ..
        have hall : name.all isLocalChar = true := by
          rw [← hname]
          exact List.all_takeWhile
        refine ⟨c, cs ++ '@' :: domain, ?_, ?_⟩
        · rw [htext, hreverse, List.cons_append]
        · rw [startsLiteral, List.all_eq_true.mp hall c hc, Bool.or_true]
      · exact ih hmem
  | next c _ _ _ ih => exact ih hmem

end Scan

/-- **The segments of a text are the text.** -/
theorem flatMap_text_split (s : List Char) : (split s).flatMap Segment.text = s := by
  have hscan := (scan_splitFrom none [] s).flatMap_text
  unfold split
  split
  · exact List.append_nil s
  · exact hscan

/-- A literal is not empty, and begins with a character of its sort. -/
theorem exists_cons_of_mem_split {url text s : List Char}
    (h : Segment.literal url text ∈ split s) : ∃ c cs, text = c :: cs ∧ startsLiteral c = true := by
  unfold split at h
  split at h
  · cases List.mem_singleton.mp h
  · exact (scan_splitFrom none [] s).exists_cons h

end Bracketdown.Link
