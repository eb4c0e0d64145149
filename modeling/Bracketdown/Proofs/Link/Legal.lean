import Bracketdown.Proofs.Link.Domain
import Mathlib.Data.List.Basic

/-!
# What a literal is

Every literal that is found in a text is of one of two sorts, and each sort is as long as it can be.
`IsUrl` and `IsEmail` say what the sorts are, in terms of the text before and behind the literal and
without reference to the scan; `legal_of_split` says that no other literal is made.

The scan knows where it is only through the character before and the plain text pending, so what it
knows of a literal is first put in terms of the segments before it (`Found`, `Scan.found`). The rest
is about one literal at a time.
-/

namespace Bracketdown.Link

open Text (isBlank)

/-! ## Literals in the segments of a text -/

/-- What the scan has seen of a literal, given the segments before it and the text behind it. -/
inductive Found (done : List Segment) (behind : List Char) : List Char → List Char → Prop where
  | url {url text : List Char}
    (hboundary : isBoundary (done.flatMap Segment.text).getLast? = true)
    (hurl : url? (text ++ behind) = some (url, text)) : Found done behind url text
  | email {name domain : List Char} (hne : name ≠ []) (hname : ∀ c ∈ name, isLocalChar c = true)
    (hleft : ∀ text, done.getLast? = some (.plain text) →
      ∃ c, text.getLast? = some c ∧ isLocalChar c = false)
    (hdomain : emailDomain? (domain ++ behind) = some domain) :
    Found done behind ("mailto:".toList ++ (name ++ '@' :: domain)) (name ++ '@' :: domain)

/-- A literal among segments of which the first ones are plain. -/
theorem append_cons_eq_append_cons {pending url text url' text' : List Char}
    {found done rest : List Segment}
    (h : plain pending ++ .literal url' text' :: found = done ++ .literal url text :: rest) :
    (done = plain pending ∧ url = url' ∧ text = text' ∧ rest = found)
    ∨ ∃ more, done = plain pending ++ .literal url' text' :: more
      ∧ found = more ++ .literal url text :: rest := by
  rcases List.append_eq_append_iff.mp h with ⟨more, hdone, hcons⟩ | ⟨more, hplain, hcons⟩
  · cases more with
    | nil =>
      rw [List.nil_append, List.cons.injEq] at hcons
      obtain ⟨heq, hfound⟩ := hcons
      cases heq
      exact .inl ⟨by rw [hdone, List.append_nil], rfl, rfl, hfound.symm⟩
    | cons segment more =>
      rw [List.cons_append, List.cons.injEq] at hcons
      obtain ⟨rfl, hfound⟩ := hcons
      exact .inr ⟨more, hdone, hfound⟩
  · cases more with
    | nil =>
      rw [List.nil_append, List.cons.injEq] at hcons
      obtain ⟨heq, hrest⟩ := hcons
      cases heq
      exact .inl ⟨by rw [hplain, List.append_nil], rfl, rfl, hrest⟩
    | cons segment more =>
      rw [List.cons_append, List.cons.injEq] at hcons
      rw [← hcons.1] at hplain
      exact absurd (hplain ▸ List.mem_append_cons_self) not_mem_plain

theorem getLast?_plain {pending text : List Char} :
    (plain pending).getLast? = some (.plain text) ↔ pending ≠ [] ∧ text = pending := by
  unfold plain
  cases pending with
  | nil => simp
  | cons c cs => simp [eq_comm]

/-- Segments that end with a literal end with its last character. -/
theorem getLast?_flatMap_literal (segments : List Segment) (url : List Char) {text : List Char}
    (h : text ≠ []) :
    ((segments ++ [Segment.literal url text]).flatMap Segment.text ++ [].reverse).getLast?
      = text.getLast? := by
  rw [List.reverse_nil, List.append_nil, List.flatMap_append, List.flatMap_singleton]
  exact List.getLast?_append_of_ne_nil _ h

/-- **What the scan has seen of each literal.** The induction is on the scan, with the segments that
are complete before what is pending in `past`; the last of them, if there is one, is a literal. -/
theorem Scan.found {before : Option Char} {pending s : List Char} {segments : List Segment}
    (h : Scan before pending s segments) :
    ∀ (past : List Segment) {done rest : List Segment} {url text : List Char},
      before = (past.flatMap Segment.text ++ pending.reverse).getLast? →
      (∀ text, past.getLast? ≠ some (.plain text)) →
      segments = done ++ .literal url text :: rest →
      Found (past ++ done) (rest.flatMap Segment.text) url text := by
  induction h with
  | done =>
    intro past done rest url text _ _ hsegments
    exact absurd (hsegments ▸ List.mem_append_cons_self) not_mem_plain
  | @url before pending url' text' rest' found hboundary hurl hrest ih =>
    intro past done rest url text hbefore hpast hsegments
    rcases append_cons_eq_append_cons hsegments with ⟨rfl, rfl, rfl, rfl⟩ | ⟨more, rfl, hfound⟩
    · refine .url ?_ ?_
      · rw [List.flatMap_append, flatMap_text_plain, ← hbefore]
        exact hboundary
      · rw [hrest.flatMap_text]
        exact hurl
    · have hfound' := ih (past ++ plain pending.reverse ++ [.literal url' text'])
        (getLast?_flatMap_literal _ _ (ne_nil_of_url? hurl)).symm (by simp) hfound
      rwa [List.append_assoc, List.append_assoc, List.singleton_append] at hfound'
  | @email before name pending text' domain rest' found hname hne hdomain htext hrest ih =>
    intro past done rest url text hbefore hpast hsegments
    rcases append_cons_eq_append_cons hsegments with ⟨rfl, rfl, rfl, rfl⟩ | ⟨more, rfl, hfound⟩
    · rw [htext]
      refine .email (mt List.reverse_eq_nil_iff.mp hne) (fun c hc => ?_) ?_ ?_
      · rw [List.mem_reverse, ← hname] at hc
        exact List.all_eq_true.mp List.all_takeWhile c hc
      · -- What is pending ends where the local part starts.
        intro text hlast
        cases pending with
        | nil => exact absurd (by simpa [plain] using hlast) (hpast text)
        | cons c pending =>
          rw [List.getLast?_append_of_ne_nil _ (by simp [plain]), getLast?_plain] at hlast
          refine ⟨c, by rw [hlast.2]; simp, Bool.eq_false_iff.mpr fun hc => ?_⟩
          have hlonger : (name ++ c :: pending).takeWhile isLocalChar
              = name ++ c :: pending.takeWhile isLocalChar := by
            rw [List.takeWhile_append_of_pos, List.takeWhile_cons_of_pos hc]
            rw [← hname]
            exact List.all_eq_true.mp List.all_takeWhile
          rw [hlonger] at hname
          simp at hname
      · rw [hrest.flatMap_text]
        exact hdomain
    · have hne : text' ≠ [] := by simp [htext]
      have hfound' := ih
        (past ++ plain pending.reverse ++ [.literal ("mailto:".toList ++ text') text'])
        (getLast?_flatMap_literal _ _ hne).symm (by simp) hfound
      rwa [List.append_assoc, List.append_assoc, List.singleton_append] at hfound'
  | next c _ _ _ ih =>
    intro past done rest url text hbefore hpast hsegments
    exact ih past (by simp) hpast hsegments

theorem found_of_split {s : List Char} {done rest : List Segment} {url text : List Char}
    (h : split s = done ++ .literal url text :: rest) :
    Found done (rest.flatMap Segment.text) url text := by
  unfold split at h
  split at h
  · have hmem : Segment.literal url text ∈ [Segment.plain s] := h ▸ List.mem_append_cons_self
    cases List.mem_singleton.mp hmem
  · exact (scan_splitFrom none [] s).found [] rfl (by simp) h

/-! ## URLs -/

/-- An URL literal, between the text before and the text behind it. -/
structure IsUrl (before behind url text : List Char) : Prop where
  boundary : isBoundary before.getLast? = true
  address : ∃ start found, text = start ++ found ∧ StartsUrl start found
    ∧ Domain (found.takeWhile fun c => !endsHost c) ∧ url = urlOf start text
  compact : ∀ c ∈ text, isBlank c = false ∧ c ≠ '<'
  settled : Settled text
  /-- The text goes on up to the next blank or `<` with what may be cut off only. -/
  maximal : Shed text (reach behind)

theorem reach_append {first : List Char} (h : ∀ c ∈ first, isBlank c = false ∧ c ≠ '<')
    (rest : List Char) : reach (first ++ rest) = first ++ reach rest := by
  refine List.takeWhile_append_of_pos fun c hc => ?_
  rw [(h c hc).1, decide_eq_false (h c hc).2]
  rfl

theorem compact_of_mem_reach {s : List Char} {c : Char} (h : c ∈ reach s) :
    isBlank c = false ∧ c ≠ '<' := by
  have hc := List.all_eq_true.mp List.all_takeWhile c h
  rwa [Bool.not_eq_true', Bool.or_eq_false_iff, decide_eq_false_iff_not] at hc

theorem isUrl_of_url? {before behind url text : List Char}
    (hboundary : isBoundary before.getLast? = true)
    (hurl : url? (text ++ behind) = some (url, text)) : IsUrl before behind url text := by
  obtain ⟨start, rest, found, hcut, hstart, hfound, rfl, rfl⟩ := exists_start_of_url? hurl
  rw [List.append_assoc, List.append_cancel_left_eq] at hcut
  subst hcut
  have hpath : found = pathOf (found ++ behind) := (address?_eq_some hfound).1
  obtain ⟨tail, htail, hshed⟩ := shed_trimTail (reach (found ++ behind))
  have hcompact : ∀ c ∈ found, isBlank c = false ∧ c ≠ '<' := by
    intro c hc
    rw [hpath] at hc
    refine compact_of_mem_reach (s := found ++ behind) ?_
    rw [htail]
    exact List.mem_append_left _ hc
  have hsettled : Settled found := by
    rw [hpath]
    exact settled_trimTail _
  have hopen := hstart.not_mem (c := '(') (by decide) (by decide) (by decide)
  have hclose := hstart.not_mem (c := ')') (by decide) (by decide) (by decide)
  have hamp := hstart.not_mem (c := '&') (by decide) (by decide) (by decide)
  have hless := hstart.not_mem (c := '<') (by decide) (by decide) (by decide)
  refine ⟨hboundary, ⟨start, found, rfl, hstart.address hfound, ?_, rfl⟩, ?_, ?_, ?_⟩
  · exact isDomain_iff.mp (address?_eq_some hfound).2
  · intro c hc
    rcases List.mem_append.mp hc with hc | hc
    · exact ⟨hstart.not_isBlank hc, fun h => hless (h ▸ hc)⟩
    · exact hcompact c hc
  · exact hsettled.behind hopen hclose hamp (ne_nil_of_address? hfound)
  · have hrest : tail = reach behind := by
      have hcut : reach (found ++ behind) = found ++ tail :=
        htail.trans (congrArg (· ++ tail) hpath.symm)
      rw [reach_append hcompact] at hcut
      exact (List.append_cancel_left hcut).symm
    rw [← hrest]
    refine Shed.behind hopen hclose ?_
    rw [hpath]
    exact hshed

/-! ## Email addresses -/

/-- An email literal, between the segments before it and the text behind it. -/
structure IsEmail (done : List Segment) (behind name domain : List Char) : Prop where
  name_ne_nil : name ≠ []
  nameChars : ∀ c ∈ name, isLocalChar c = true
  /-- The local part starts behind a literal, or behind a character that cannot be in it. -/
  leftmost : ∀ text, done.getLast? = some (.plain text) →
    ∃ c, text.getLast? = some c ∧ isLocalChar c = false
  dotted : '.' ∈ domain
  domainChars : ∀ c ∈ domain, isEmailDomainChar c = true
  ne_nil : ∀ part ∈ segments domain, part ≠ []
  plainEnd : ∀ c ∈ domain.getLast?, c ≠ '-' ∧ c ≠ '_'
  /-- Behind the domain there are dots only, up to a character that cannot be in it. -/
  maximal : ∀ c ∈ (behind.dropWhile (· = '.')).head?, isEmailDomainChar c = false

/-- The run of characters that an email domain is cut from is the domain with dots behind it. -/
theorem exists_dots (run : List Char) :
    ∃ dots, run = (run.reverse.dropWhile (· = '.')).reverse ++ dots ∧ ∀ c ∈ dots, c = '.' := by
  refine ⟨(run.reverse.takeWhile (· = '.')).reverse, ?_, fun c hc => ?_⟩
  · rw [← List.reverse_append, List.takeWhile_append_dropWhile, List.reverse_reverse]
  · exact of_decide_eq_true (List.all_eq_true.mp List.all_takeWhile c (List.mem_reverse.mp hc))

theorem head?_dropWhile_dots {dots rest : List Char} (hdots : ∀ c ∈ dots, c = '.')
    (hrest : ∀ c ∈ rest.head?, isEmailDomainChar c = false) :
    (dots ++ rest).dropWhile (· = '.') = rest := by
  rw [List.dropWhile_append_of_pos fun c hc => decide_eq_true (hdots c hc)]
  cases rest with
  | nil => rfl
  | cons c rest =>
    have hc := hrest c rfl
    refine List.dropWhile_cons_of_neg ?_
    rw [decide_eq_true_eq]
    rintro rfl
    exact absurd hc (by decide)

theorem isEmail_of_emailDomain? {done : List Segment} {behind name domain : List Char}
    (hne : name ≠ []) (hname : ∀ c ∈ name, isLocalChar c = true)
    (hleft : ∀ text, done.getLast? = some (.plain text) →
      ∃ c, text.getLast? = some c ∧ isLocalChar c = false)
    (hdomain : emailDomain? (domain ++ behind) = some domain) :
    IsEmail done behind name domain := by
  unfold emailDomain? at hdomain
  dsimp only at hdomain
  split at hdomain
  · cases hdomain
  next hgood =>
    have heq := Option.some.inj hdomain
    rw [heq] at hgood
    simp only [Bool.or_eq_true, Bool.not_eq_true', not_or, Bool.not_eq_false, Bool.not_eq_true,
      List.contains_eq_mem, decide_eq_true_eq, List.any_eq_false,
      List.isEmpty_iff] at hgood
    obtain ⟨⟨hdotted, hend⟩, hparts⟩ := hgood
    have hcut : (domain ++ behind).takeWhile isEmailDomainChar
        ++ (domain ++ behind).dropWhile isEmailDomainChar = domain ++ behind :=
      List.takeWhile_append_dropWhile
    obtain ⟨dots, hrun, hdots⟩ := exists_dots ((domain ++ behind).takeWhile isEmailDomainChar)
    rw [heq] at hrun
    have hbehind : dots ++ (domain ++ behind).dropWhile isEmailDomainChar = behind := by
      rw [hrun, List.append_assoc] at hcut
      exact List.append_cancel_left hcut
    have hstop : ∀ c ∈ ((domain ++ behind).dropWhile isEmailDomainChar).head?,
        isEmailDomainChar c = false := by
      intro c hc
      have hhead := List.head?_dropWhile_not isEmailDomainChar (domain ++ behind)
      rw [hc] at hhead
      exact hhead
    refine ⟨hne, hname, hleft, hdotted, ?_, hparts, ?_, ?_⟩
    · intro c hc
      have hmem := List.mem_append_left dots hc
      rw [← hrun] at hmem
      exact List.all_eq_true.mp List.all_takeWhile c hmem
    · intro c hc
      rw [Option.mem_def.mp hc, Option.any_some] at hend
      simpa using hend
    · rw [← hbehind, head?_dropWhile_dots hdots hstop]
      exact hstop

/-! ## All literals -/

/-- **Every literal is a legal URL or email address of maximal extent.** -/
theorem legal_of_split {s : List Char} {done rest : List Segment} {url text : List Char}
    (h : split s = done ++ .literal url text :: rest) :
    s = done.flatMap Segment.text ++ text ++ rest.flatMap Segment.text
      ∧ (IsUrl (done.flatMap Segment.text) (rest.flatMap Segment.text) url text
        ∨ ∃ name domain, text = name ++ '@' :: domain ∧ url = "mailto:".toList ++ text
          ∧ IsEmail done (rest.flatMap Segment.text) name domain) := by
  constructor
  · have htext := flatMap_text_split s
    rw [h, List.flatMap_append, List.flatMap_cons, ← List.append_assoc] at htext
    exact htext.symm
  · cases found_of_split h with
    | url hboundary hurl => exact .inl (isUrl_of_url? hboundary hurl)
    | email hne hname hleft hdomain =>
      exact .inr ⟨_, _, rfl, rfl, isEmail_of_emailDomain? hne hname hleft hdomain⟩

/-- An URL with a balanced parenthesis in it and another one behind it. -/
theorem legal_of_split_parentheses :
    split "(www.a.b/x_(y)?!). m.n@d.e.".toList
        = [.plain "(".toList] ++ .literal "http://www.a.b/x_(y)".toList "www.a.b/x_(y)".toList
          :: [.plain "?!). ".toList, .literal "mailto:m.n@d.e".toList "m.n@d.e".toList,
            .plain ".".toList]
      ∧ IsUrl "(".toList "?!). m.n@d.e.".toList "http://www.a.b/x_(y)".toList
        "www.a.b/x_(y)".toList := by
  have hsplit : split "(www.a.b/x_(y)?!). m.n@d.e.".toList
      = [.plain "(".toList] ++ .literal "http://www.a.b/x_(y)".toList "www.a.b/x_(y)".toList
        :: [.plain "?!). ".toList, .literal "mailto:m.n@d.e".toList "m.n@d.e".toList,
          .plain ".".toList] := by decide +kernel
  refine ⟨hsplit, ?_⟩
  obtain ⟨-, hlegal⟩ := legal_of_split hsplit
  rcases hlegal with hurl | ⟨name, domain, htext, -⟩
  · exact hurl
  · have hat : '@' ∈ "www.a.b/x_(y)".toList := by
      rw [htext]
      exact List.mem_append_cons_self
    exact absurd hat (by decide +kernel)

end Bracketdown.Link
