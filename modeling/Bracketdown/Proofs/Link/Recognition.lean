import Bracketdown.Proofs.Link.Legal

/-!
# Which URLs are recognized

At every place of a text that the scan comes to, an URL is linked whenever one is found there
(`Scan.linkedOrInside`). So whether a text with a domain at some place has a link there is a
question about the domain and the text behind it, and `literalAt_url_iff` answers it: the domain is
linked if and only if what is left of the text behind it, trimmed and up to the next blank, is empty
or starts with one of the four characters that end a host. Any other character there is taken for a
part of the host, which is then no domain, and the URL is not recognized at all
(`split_domain_comma`).
-/

namespace Bracketdown.Link

/-- A literal of a text, with the place at which it starts. -/
def LiteralAt (s : List Char) (place : Nat) (url text : List Char) : Prop :=
  ∃ done rest, split s = done ++ .literal url text :: rest
    ∧ (done.flatMap Segment.text).length = place

/-! ## The scan passes no URL by -/

theorem url?_nil : url? [] = none := by decide +kernel

/-- Behind the text `first` there is a certain literal, or else that place is inside another one. -/
def LinkedOrInside (segments : List Segment) (first url text : List Char) : Prop :=
  (∃ done rest, segments = done ++ .literal url text :: rest ∧ done.flatMap Segment.text = first)
  ∨ ∃ done rest url' text', segments = done ++ .literal url' text' :: rest
    ∧ (done.flatMap Segment.text).length < first.length
    ∧ first.length < (done.flatMap Segment.text).length + text'.length

/-- More segments in front move the place. -/
theorem LinkedOrInside.behind {segments : List Segment} {first url text : List Char}
    (h : LinkedOrInside segments first url text) (before : List Segment) :
    LinkedOrInside (before ++ segments) (before.flatMap Segment.text ++ first) url text := by
  rcases h with ⟨done, rest, rfl, rfl⟩ | ⟨done, rest, url', text', rfl, hlow, hhigh⟩
  · exact .inl ⟨before ++ done, rest, (List.append_assoc ..).symm, List.flatMap_append⟩
  · refine .inr ⟨before ++ done, rest, url', text', (List.append_assoc ..).symm, ?_, ?_⟩
    · rw [List.flatMap_append, List.length_append, List.length_append]
      omega
    · rw [List.flatMap_append, List.length_append, List.length_append]
      omega

/-- **An URL that is found at a boundary is linked, or lies inside a literal.** The induction is on
the scan; `first` is the text from where the scan is up to the URL. -/
theorem Scan.linkedOrInside {before : Option Char} {pending s : List Char}
    {segments : List Segment} (h : Scan before pending s segments) :
    ∀ {first rest url text : List Char}, s = first ++ rest →
      isBoundary (first.getLast?.or before) = true → url? rest = some (url, text) →
      LinkedOrInside segments (pending.reverse ++ first) url text := by
  induction h with
  | done =>
    intro first rest url text hs _ hurl
    rw [(List.append_eq_nil_iff.mp hs.symm).2, url?_nil] at hurl
    cases hurl
  | @url before pending url' text' rest' found hboundary' hurl' hrest ih =>
    intro first rest url text hs hboundary hurl
    obtain ⟨c, cs, htext, -⟩ := exists_cons_of_url? hurl'
    by_cases hle : text'.length ≤ first.length
    · -- The place is behind the URL that is found here.
      obtain ⟨more, rfl⟩ := List.prefix_of_prefix_length_le ⟨rest', hs⟩ ⟨rest, rfl⟩ hle
      rw [List.append_assoc, List.append_cancel_left_eq] at hs
      have hlast : (text' ++ more).getLast?.or before = more.getLast?.or text'.getLast? := by
        rw [List.getLast?_append, htext, List.getLast?_eq_some_getLast (List.cons_ne_nil c cs)]
        cases more.getLast? <;> rfl
      have hbehind := (ih hs (hlast ▸ hboundary) hurl).behind
        (plain pending.reverse ++ [.literal url' text'])
      simpa [flatMap_text_plain, Segment.text] using hbehind
    · cases first with
      | nil =>
        rw [List.nil_append] at hs
        rw [hs, hurl] at hurl'
        cases hurl'
        exact .inl ⟨plain pending.reverse, found, rfl, by rw [flatMap_text_plain, List.append_nil]⟩
      | cons d first =>
        refine .inr ⟨plain pending.reverse, found, url', text', rfl, ?_, ?_⟩
        · simp [flatMap_text_plain]
        · rw [flatMap_text_plain, List.length_append]
          omega
  | @email before name pending text' domain rest' found _ hne _ htext hrest ih =>
    intro first rest url text hs hboundary hurl
    cases first with
    | nil =>
      rw [List.nil_append] at hs
      rw [← hs, url?_at] at hurl
      cases hurl
    | cons d first =>
      rw [List.cons_append, List.cons.injEq] at hs
      obtain ⟨rfl, hs⟩ := hs
      by_cases hle : domain.length ≤ first.length
      · obtain ⟨more, rfl⟩ := List.prefix_of_prefix_length_le ⟨rest', hs⟩ ⟨rest, rfl⟩ hle
        rw [List.append_assoc, List.append_cancel_left_eq] at hs
        have hlast : ('@' :: (domain ++ more)).getLast?.or before
            = more.getLast?.or text'.getLast? := by
          rw [htext, ← List.cons_append, List.getLast?_append,
            List.getLast?_append_of_ne_nil _ (List.cons_ne_nil '@' domain),
            List.getLast?_eq_some_getLast (List.cons_ne_nil '@' domain)]
          cases more.getLast? <;> rfl
        have hbehind := (ih hs (hlast ▸ hboundary) hurl).behind
          (plain pending.reverse ++ [.literal ("mailto:".toList ++ text') text'])
        simpa [flatMap_text_plain, Segment.text, htext] using hbehind
      · have hlength : 0 < name.length := List.length_pos_iff.mpr hne
        refine .inr ⟨plain pending.reverse, found, _, text', rfl, ?_, ?_⟩
        · simp only [flatMap_text_plain, List.length_append, List.length_reverse, List.length_cons]
          omega
        · simp only [flatMap_text_plain, htext, List.length_append, List.length_reverse,
            List.length_cons]
          omega
  | @next before pending rest' found c hurl' _ hrest ih =>
    intro first rest url text hs hboundary hurl
    cases first with
    | nil =>
      rw [List.nil_append] at hs
      rw [← hs, hurl' hboundary] at hurl
      cases hurl
    | cons d first =>
      rw [List.cons_append, List.cons.injEq] at hs
      obtain ⟨rfl, hs⟩ := hs
      have hlast : (c :: first).getLast?.or before = first.getLast?.or (some c) := by
        rw [List.getLast?_cons]
        cases first.getLast? <;> rfl
      have hrest := ih hs (hlast ▸ hboundary) hurl
      rwa [List.reverse_cons, List.append_assoc, List.singleton_append] at hrest

theorem split_eq_of_literal {s : List Char} {done rest : List Segment} {url text : List Char}
    (h : splitFrom none [] s = done ++ .literal url text :: rest) :
    split s = done ++ .literal url text :: rest := by
  unfold split
  split
  next hnil =>
    rw [hnil] at h
    exact absurd h.symm (List.append_ne_nil_of_right_ne_nil _ (List.cons_ne_nil _ _))
  · exact h

/-- An URL at a place of a text that is a boundary and inside no literal is linked there. -/
theorem literalAt_of_url? {before behind url text : List Char}
    (hboundary : isBoundary before.getLast? = true)
    (hfree : ∀ place url text, LiteralAt (before ++ behind) place url text →
      ¬ (place < before.length ∧ before.length < place + text.length))
    (hurl : url? behind = some (url, text)) :
    LiteralAt (before ++ behind) before.length url text := by
  have hscan := (scan_splitFrom none [] (before ++ behind)).linkedOrInside rfl
    (by rwa [Option.or_none]) hurl
  rcases hscan with ⟨done, rest, hsplit, hdone⟩ | ⟨done, rest, url', text', hsplit, hlow, hhigh⟩
  · exact ⟨done, rest, split_eq_of_literal hsplit, by rw [hdone]; rfl⟩
  · exact absurd ⟨hlow, hhigh⟩ (hfree _ url' text' ⟨done, rest, split_eq_of_literal hsplit, rfl⟩)

/-! ## Domains -/

/-- An address of an email is not that of an URL. -/
theorem mailto_ne_urlOf (start text : List Char) : "mailto:".toList ++ text ≠ urlOf start text := by
  unfold urlOf
  split
  · simp
  · intro h
    have hlength := congrArg List.length h
    rw [List.length_append] at hlength
    exact absurd hlength (by simp)

/-- What a literal for an URL shows of the text at its place. -/
theorem url?_of_literalAt {before behind start text : List Char}
    (h : LiteralAt (before ++ behind) before.length (urlOf start text) text) :
    url? behind = some (urlOf start text, text) := by
  obtain ⟨done, rest, hsplit, hplace⟩ := h
  have htext := flatMap_text_split (before ++ behind)
  rw [hsplit, List.flatMap_append, List.flatMap_cons] at htext
  obtain ⟨-, hbehind⟩ := List.append_inj htext hplace
  rw [← hbehind]
  generalize hurl : urlOf start text = url at hsplit ⊢
  cases found_of_split hsplit with
  | url _ hfound => exact hfound
  | email => exact absurd hurl.symm (mailto_ne_urlOf start _)

/-- **Which domains are linked.** Let a domain stand behind a scheme, or start with `www.`, at a
boundary that lies inside no literal, and let no further character of a domain follow. Then an URL
with that domain is linked there if and only if the text behind the domain, up to the next blank or
`<` and trimmed, is empty or starts with a character that ends a host. -/
theorem literalAt_url_iff {before start domain behind : List Char}
    (hboundary : isBoundary before.getLast? = true)
    (hfree : ∀ place url text, LiteralAt (before ++ (start ++ (domain ++ behind))) place url text →
      ¬ (place < before.length ∧ before.length < place + text.length))
    (hstart : StartsUrl start domain) (hdomain : isDomain domain = true)
    (hbehind : ∀ c ∈ behind.head?, inDomain c = false) :
    (∃ url text, LiteralAt (before ++ (start ++ (domain ++ behind))) before.length url text
        ∧ url = urlOf start text ∧ start ++ domain <+: text)
      ↔ ∀ c ∈ (pathOf behind).head?, endsHost c = true := by
  have hurl := url?_of_startsUrl (hstart.append behind)
  rw [address?_domain (isDomain_iff.mp hdomain) hbehind] at hurl
  constructor
  · rintro ⟨url, text, hliteral, rfl, -⟩
    have hfound := url?_of_literalAt hliteral
    by_cases hcut : ∀ c ∈ (pathOf behind).head?, endsHost c = true
    · exact hcut
    · rw [hurl, if_neg (fun hall => hcut ((Option.all_eq_true _ _).mp hall))] at hfound
      cases hfound
  · intro hcut
    rw [if_pos ((Option.all_eq_true _ _).mpr hcut), Option.map_some] at hurl
    refine ⟨_, _, literalAt_of_url? hboundary hfree hurl, rfl, ?_⟩
    exact ⟨pathOf behind, List.append_assoc ..⟩

/-- A domain with a port and a path behind it, in parentheses. -/
theorem literalAt_url_iff_port :
    isBoundary "a (".toList.getLast? = true ∧ StartsUrl "HTTPS://".toList "a_b.c.d".toList
      ∧ isDomain "a_b.c.d".toList = true
      ∧ ∃ url text, LiteralAt "a (HTTPS://a_b.c.d:80/x) y".toList 3 url text
        ∧ url = urlOf "HTTPS://".toList text ∧ "HTTPS://a_b.c.d".toList <+: text := by
  have hboundary : isBoundary "a (".toList.getLast? = true := by decide +kernel
  have hstart : StartsUrl "HTTPS://".toList "a_b.c.d".toList := .inl (by decide +kernel)
  have hdomain : isDomain "a_b.c.d".toList = true := by decide +kernel
  have hsplit : split "a (HTTPS://a_b.c.d:80/x) y".toList
      = [.plain "a (".toList, .literal "HTTPS://a_b.c.d:80/x".toList "HTTPS://a_b.c.d:80/x".toList,
        .plain ") y".toList] := by decide +kernel
  have hfree : ∀ place url text, LiteralAt "a (HTTPS://a_b.c.d:80/x) y".toList place url text →
      ¬ (place < "a (".toList.length ∧ "a (".toList.length < place + text.length) := by
    rintro place url text ⟨done, rest, hcut, rfl⟩ ⟨hlow, -⟩
    rw [hsplit] at hcut
    -- The literal is the second segment, so it starts at the place itself.
    rcases done with _ | ⟨first, _ | ⟨second, _ | ⟨third, done⟩⟩⟩
    · cases hcut
    · cases hcut
      exact absurd hlow (by decide)
    · cases hcut
    · simp at hcut
  have hbehind : ∀ c ∈ ":80/x) y".toList.head?, inDomain c = false := by
    rintro c ⟨⟩
    decide
  have hpath : (pathOf ":80/x) y".toList).head? = some ':' := by decide +kernel
  have hcut : ∀ c ∈ (pathOf ":80/x) y".toList).head?, endsHost c = true := by
    rw [hpath]
    rintro c ⟨⟩
    decide
  exact ⟨hboundary, hstart, hdomain,
    (literalAt_url_iff hboundary hfree hstart hdomain hbehind).mpr hcut⟩

/-- Behind this domain stands a comma, which neither ends a host nor is trimmed, so that the text
has no link. -/
theorem split_domain_comma :
    StartsUrl "http://".toList "example.com".toList ∧ isDomain "example.com".toList = true
      ∧ inDomain ',' = false
      ∧ split ("http://".toList ++ ("example.com".toList ++ ",x".toList))
        = [.plain "http://example.com,x".toList] := by
  refine ⟨.inl ?_, ?_, ?_, ?_⟩ <;> decide +kernel

end Bracketdown.Link
