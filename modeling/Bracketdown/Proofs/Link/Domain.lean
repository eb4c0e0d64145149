import Bracketdown.Proofs.Link.Scan
import Bracketdown.Proofs.Link.Tail

/-!
# Domains and addresses

`Domain` says what a domain is in words of its segments. A domain ends in a letter, a digit or a
hyphen, so nothing is ever trimmed off it, and a character that no domain contains cannot be taken
into its host. This settles what an address is that starts with a domain (`address?_domain`): the
domain and the trimmed text behind it, if that text is empty or starts with one of the four
characters that end a host, and nothing at all otherwise.
-/

namespace Bracketdown.Link

open Text (isAlphanumeric isBlank)

/-- What a domain is: at least two segments, none of them empty, all of letters, digits, hyphens and
underscores, the last two without underscores. -/
structure Domain (s : List Char) : Prop where
  dotted : 2 ≤ (segments s).length
  ne_nil : ∀ part ∈ segments s, part ≠ []
  chars : ∀ part ∈ segments s, ∀ c ∈ part, isDomainChar c = true
  plainEnd : ∀ part ∈ (segments s).reverse.take 2, '_' ∉ part

theorem isDomain_iff {s : List Char} : isDomain s = true ↔ Domain s := by
  unfold isDomain
  simp only [Bool.and_eq_true, decide_eq_true_eq, List.all_eq_true, Bool.not_eq_true',
    List.isEmpty_eq_false_iff, List.contains_eq_mem, decide_eq_false_iff_not]
  constructor
  · rintro ⟨⟨hdotted, hparts⟩, hend⟩
    exact ⟨hdotted, fun part h => (hparts part h).1, fun part h => (hparts part h).2, hend⟩
  · rintro ⟨hdotted, hne, hchars, hend⟩
    exact ⟨⟨hdotted, fun part h => ⟨hne part h, hchars part h⟩⟩, hend⟩

/-! ## The characters of a domain -/

/-- The characters of a domain with its dots. -/
def inDomain (c : Char) : Bool := isDomainChar c || c = '.'

theorem Domain.inDomain_of_mem {s : List Char} (h : Domain s) {c : Char} (hc : c ∈ s) :
    inDomain c = true := by
  rw [inDomain, Bool.or_eq_true, decide_eq_true_eq]
  by_cases hdot : c = '.'
  · exact .inr hdot
  · obtain ⟨part, hpart, hmem⟩ :=
      @Text.exists_mem_parts (· = '.') c (decide_eq_false hdot) s hc
    exact .inl (h.chars part hpart c hmem)

/-- A domain ends in a character of a segment other than an underscore. -/
theorem Domain.exists_concat {s : List Char} (h : Domain s) :
    ∃ before c, s = before ++ [c] ∧ isDomainChar c = true ∧ c ≠ '_' := by
  rcases List.eq_nil_or_concat s with rfl | ⟨before, c, hs⟩
  · exact absurd h.dotted (by decide)
  · rw [List.concat_eq_append] at hs
    subst hs
    refine ⟨before, c, rfl, ?_⟩
    by_cases hdot : c = '.'
    · -- Behind a dot at the end there would be an empty segment.
      refine absurd rfl (h.ne_nil [] ?_)
      rw [segments, @Text.parts_concat_of_mark (· = '.') c (decide_eq_true hdot)]
      exact List.mem_append_right _ (List.mem_singleton.mpr rfl)
    · obtain ⟨first, last, hparts⟩ :=
        @Text.parts_concat (· = '.') c (decide_eq_false hdot) before
      have hmem : last ++ [c] ∈ segments (before ++ [c]) := by
        rw [segments, hparts]
        exact List.mem_append_right _ (List.mem_singleton.mpr rfl)
      have hend : last ++ [c] ∈ (segments (before ++ [c])).reverse.take 2 := by
        rw [segments, hparts, List.reverse_append, List.reverse_singleton, List.singleton_append]
        exact List.mem_cons_self ..
      refine ⟨h.chars _ hmem c (by simp), ?_⟩
      rintro rfl
      exact h.plainEnd _ hend (by simp)

/-- The code points of the blanks. -/
def blanks : List Nat :=
  [0x09, 0x0a, 0x0b, 0x0c, 0x0d, 0x20, 0x85, 0xa0, 0x1680, 0x2000, 0x2001, 0x2002, 0x2003, 0x2004,
    0x2005, 0x2006, 0x2007, 0x2008, 0x2009, 0x200a, 0x2028, 0x2029, 0x202f, 0x205f, 0x3000]

theorem toNat_mem_blanks {c : Char} (h : isBlank c = true) : c.toNat ∈ blanks := by
  simp only [isBlank, Bool.or_eq_true, Bool.and_eq_true, decide_eq_true_eq] at h
  simp only [blanks, List.mem_cons, List.not_mem_nil, or_false]
  omega

/-- What fails for every code point of a blank fails for every blank. -/
theorem eq_false_of_isBlank {p : Char → Bool} (hall : ∀ n ∈ blanks, p (Char.ofNat n) = false)
    {c : Char} (h : isBlank c = true) : p c = false := by
  have hc := hall c.toNat (toNat_mem_blanks h)
  rwa [Char.ofNat_toNat] at hc

/-- No blank is a letter or a digit. -/
theorem isAlphanumeric_of_isBlank {c : Char} (h : isBlank c = true) : isAlphanumeric c = false :=
  eq_false_of_isBlank (by decide +kernel) h

theorem not_inDomain_of_isBlank {c : Char} (h : isBlank c = true) : inDomain c = false := by
  have hne : ∀ d : Char, isBlank d = false → c ≠ d := by
    rintro d hd rfl
    rw [h] at hd
    cases hd
  rw [inDomain, isDomainChar, isAlphanumeric_of_isBlank h, decide_eq_false (hne '-' (by decide)),
    decide_eq_false (hne '_' (by decide)), decide_eq_false (hne '.' (by decide))]
  rfl

/-- A domain has none of the characters that no domain contains. -/
theorem Domain.not_mem {s : List Char} (h : Domain s) {c : Char} (hc : inDomain c = false) :
    c ∉ s := by
  intro hmem
  rw [h.inDomain_of_mem hmem] at hc
  cases hc

/-- A text with a character that no domain contains is no domain. -/
theorem not_isDomain_append {c : Char} (hc : inDomain c = false) (first rest : List Char) :
    isDomain (first ++ c :: rest) = false := by
  refine Bool.eq_false_iff.mpr fun hdomain => ?_
  exact (isDomain_iff.mp hdomain).not_mem hc (List.mem_append_right _ (List.mem_cons_self ..))

/-! ## Addresses that start with a domain -/

/-- The text up to the next blank or `<`, which is as far as an URL may go. -/
def reach (s : List Char) : List Char := s.takeWhile fun c => !(isBlank c || c = '<')

/-- Where an URL that starts with a domain ends, given the text behind the domain. -/
def pathOf (behind : List Char) : List Char := trimTail (reach behind)

theorem pathOf_isPrefix (behind : List Char) : pathOf behind <+: behind := by
  obtain ⟨tail, hcut, -⟩ := shed_trimTail (reach behind)
  have htrim : pathOf behind <+: reach behind := ⟨tail, hcut.symm⟩
  exact htrim.trans (List.takeWhile_prefix _)

theorem address?_eq (s : List Char) :
    address? s = if isDomain ((pathOf s).takeWhile fun c => !endsHost c) then some (pathOf s)
      else none := rfl

section

variable {domain : List Char} (h : Domain domain)
include h

theorem reach_domain (behind : List Char) : reach (domain ++ behind) = domain ++ reach behind := by
  refine List.takeWhile_append_of_pos fun c hc => ?_
  rw [Bool.not_eq_true', Bool.or_eq_false_iff, decide_eq_false_iff_not]
  refine ⟨Bool.eq_false_iff.mpr fun hblank => ?_, ?_⟩
  · exact h.not_mem (not_inDomain_of_isBlank hblank) hc
  · rintro rfl
    exact h.not_mem (by decide) hc

/-- Nothing is trimmed off a domain. -/
theorem pathOf_domain (behind : List Char) :
    pathOf (domain ++ behind) = domain ++ pathOf behind := by
  obtain ⟨before, c, rfl, hc, hunderscore⟩ := h.exists_concat
  have hne : ∀ d : Char, isDomainChar d = false → c ≠ d := by
    rintro d hd rfl
    rw [hc] at hd
    cases hd
  have hpunctuation : isTailPunctuation c = false := by
    simp [isTailPunctuation, hunderscore, hne '?' (by decide), hne '!' (by decide),
      hne '.' (by decide), hne ',' (by decide), hne ':' (by decide), hne '*' (by decide),
      hne '~' (by decide)]
  rw [pathOf, reach_domain h, trimTail_append hpunctuation (hne ';' (by decide))
    (h.not_mem (by decide)) (h.not_mem (by decide)) (h.not_mem (by decide)), pathOf]

theorem takeWhile_host (path : List Char) :
    (domain ++ path).takeWhile (fun c => !endsHost c)
      = domain ++ path.takeWhile fun c => !endsHost c := by
  refine List.takeWhile_append_of_pos fun c hc => ?_
  rw [Bool.not_eq_true', endsHost]
  simp only [Bool.or_eq_false_iff, decide_eq_false_iff_not]
  refine ⟨⟨⟨?_, ?_⟩, ?_⟩, ?_⟩ <;>
    · rintro rfl
      exact h.not_mem (by decide) hc

/-- **What an address is that starts with a domain**: where the domain ends, the text must end as
well, as far as it is not trimmed, or the host must. -/
theorem address?_domain {behind : List Char} (hbehind : ∀ c ∈ behind.head?, inDomain c = false) :
    address? (domain ++ behind)
      = if (pathOf behind).head?.all endsHost then some (domain ++ pathOf behind) else none := by
  rw [address?_eq, pathOf_domain h, takeWhile_host h]
  cases hpath : pathOf behind with
  | nil =>
    rw [List.takeWhile_nil, List.append_nil, if_pos (isDomain_iff.mpr h), List.head?_nil,
      Option.all_none, if_pos rfl]
  | cons c path =>
    obtain ⟨rest, hrest⟩ := pathOf_isPrefix behind
    rw [hpath, List.cons_append] at hrest
    have hc : inDomain c = false := hbehind c (by rw [← hrest]; rfl)
    rw [List.head?_cons, Option.all_some]
    by_cases hhost : endsHost c = true
    · rw [List.takeWhile_cons_of_neg (by simp [hhost]), List.append_nil,
        if_pos (isDomain_iff.mpr h), if_pos hhost]
    · rw [List.takeWhile_cons_of_pos (by simp [hhost]), not_isDomain_append hc,
        if_neg Bool.false_ne_true, if_neg hhost]

end

/-! ## URLs -/

/-- A text starts with letters and signs in upper or lower case when its lower-case form starts with
them. -/
theorem startsWithFold_iff {start s : List Char} :
    startsWithFold start s = true ↔ start <+: s.map Char.toLower := by
  induction start generalizing s with
  | nil => exact ⟨fun _ => List.nil_prefix, fun _ => by rw [startsWithFold]⟩
  | cons c start ih =>
    cases s with
    | nil => simp [startsWithFold]
    | cons d s =>
      rw [startsWithFold, Bool.and_eq_true, decide_eq_true_eq, ih, List.map_cons,
        List.cons_prefix_cons]
      exact ⟨fun h => ⟨h.1.symm, h.2⟩, fun h => ⟨h.1.symm, h.2⟩⟩

/-- The start of an URL in front of its domain: a scheme, or nothing when the domain starts with
`www.`, both in upper or lower case. -/
def StartsUrl (start domain : List Char) : Prop :=
  start.map Char.toLower ∈ schemes ∨ start = [] ∧ bareStart <+: domain.map Char.toLower

/-- The address that an URL literal leads to. -/
def urlOf (start text : List Char) : List Char :=
  if start = [] then "http://".toList ++ text else text

theorem ne_nil_of_mem_schemes {start : List Char} (h : start.map Char.toLower ∈ schemes) :
    start ≠ [] := by
  rintro rfl
  revert h
  decide

/-- Of the schemes only the one that stands there is found. -/
theorem find?_schemes {start : List Char} (h : start.map Char.toLower ∈ schemes)
    (rest : List Char) :
    schemes.find? (fun scheme => startsWithFold scheme (start ++ rest))
      = some (start.map Char.toLower) := by
  have hfound : startsWithFold (start.map Char.toLower) (start ++ rest) = true := by
    rw [startsWithFold_iff, List.map_append]
    exact List.prefix_append _ _
  rw [schemes, List.mem_cons, List.mem_singleton] at h
  rcases h with h | h
  · rw [h] at hfound ⊢
    exact List.find?_cons_of_pos hfound
  · have hother : ¬ startsWithFold "http://".toList (start ++ rest) = true := by
      rw [startsWithFold_iff, List.map_append, h]
      simp [List.cons_prefix_cons]
    rw [h] at hfound ⊢
    simp only [schemes, List.find?, Bool.eq_false_iff.mpr hother, hfound]

/-- An URL is its start and an address. -/
theorem url?_of_startsUrl {start rest : List Char} (h : StartsUrl start rest) :
    url? (start ++ rest)
      = (address? rest).map fun found => (urlOf start (start ++ found), start ++ found) := by
  rcases h with hscheme | ⟨rfl, hbare⟩
  · have hlength : (start.map Char.toLower).length = start.length := List.length_map ..
    rw [url?, find?_schemes hscheme]
    dsimp only
    rw [hlength, List.drop_left, List.take_left]
    simp only [urlOf, if_neg (ne_nil_of_mem_schemes hscheme)]
    cases address? rest <;> rfl
  · have hnone : schemes.find? (fun scheme => startsWithFold scheme ([] ++ rest)) = none := by
      rw [List.find?_eq_none]
      intro scheme hscheme hstart
      obtain ⟨more, hmore⟩ := hbare
      rw [List.nil_append, startsWithFold_iff, ← hmore] at hstart
      revert hstart
      rcases List.mem_cons.mp hscheme with rfl | hscheme
      · simp [bareStart, List.cons_prefix_cons]
      · rw [List.mem_singleton.mp hscheme]
        simp [bareStart, List.cons_prefix_cons]
    rw [url?, hnone]
    dsimp only
    rw [List.nil_append, if_pos (startsWithFold_iff.mpr hbare)]
    cases address? rest <;> rfl

/-- The other way round: what is found as an URL is a start and the address behind it. -/
theorem exists_start_of_url? {s url text : List Char} (h : url? s = some (url, text)) :
    ∃ start rest found, s = start ++ rest ∧ StartsUrl start rest ∧ address? rest = some found
      ∧ text = start ++ found ∧ url = urlOf start text := by
  rcases url?_eq_some h with ⟨scheme, hscheme, hstart, found, hfound, htext, hurl⟩
    | ⟨hstart, hfound, hurl⟩
  · have hlower : (s.take scheme.length).map Char.toLower = scheme := by
      rw [List.map_take]
      exact (List.prefix_iff_eq_take.mp (startsWithFold_iff.mp hstart)).symm
    have hmem : (s.take scheme.length).map Char.toLower ∈ schemes := by rwa [hlower]
    refine ⟨s.take scheme.length, s.drop scheme.length, found,
      (List.take_append_drop _ s).symm, .inl hmem, hfound, htext, ?_⟩
    rw [urlOf, if_neg (ne_nil_of_mem_schemes hmem), hurl]
  · exact ⟨[], s, text, rfl, .inr ⟨rfl, startsWithFold_iff.mp hstart⟩, hfound, rfl, hurl⟩

theorem toLower_eq_or_isAlpha (c : Char) : c.toLower = c ∨ c.isAlpha = true := by
  by_cases h : c.val ≥ 'A'.val ∧ c.val ≤ 'Z'.val
  · have hupper : c.isUpper = true := decide_eq_true h
    exact .inr ((Bool.or_eq_true _ _).mpr (.inl hupper))
  · exact .inl (dif_neg h)

/-- A scheme consists of letters, colons and slashes. -/
theorem isAlpha_or_of_mem_start {start : List Char} (h : start.map Char.toLower ∈ schemes)
    {c : Char} (hc : c ∈ start) : c.isAlpha = true ∨ c = ':' ∨ c = '/' := by
  have hall : (schemes.all fun scheme =>
      scheme.all fun d => d.isAlpha || d == ':' || d == '/') = true := by decide
  rcases toLower_eq_or_isAlpha c with hlower | halpha
  · have hlow := List.all_eq_true.mp (List.all_eq_true.mp hall _ h) _ (List.mem_map_of_mem hc)
    rw [Bool.or_eq_true, Bool.or_eq_true, beq_iff_eq, beq_iff_eq, or_assoc, hlower] at hlow
    exact hlow
  · exact .inl halpha

theorem not_isBlank_of_isAlpha {c : Char} (h : c.isAlpha = true) : isBlank c = false := by
  refine Bool.eq_false_iff.mpr fun hblank => ?_
  have hnone : c.isAlpha = false := eq_false_of_isBlank (by decide +kernel) hblank
  rw [hnone] at h
  cases h

namespace StartsUrl

variable {start rest : List Char} (h : StartsUrl start rest)
include h

theorem append (more : List Char) : StartsUrl start (rest ++ more) := by
  rcases h with hscheme | ⟨rfl, hbare⟩
  · exact .inl hscheme
  · refine .inr ⟨rfl, ?_⟩
    rw [List.map_append]
    exact hbare.trans (List.prefix_append _ _)

theorem not_isBlank {c : Char} (hc : c ∈ start) : isBlank c = false := by
  rcases h with hscheme | ⟨rfl, -⟩
  · rcases isAlpha_or_of_mem_start hscheme hc with halpha | rfl | rfl
    · exact not_isBlank_of_isAlpha halpha
    · decide
    · decide
  · cases hc

theorem not_mem {c : Char} (halpha : c.isAlpha = false) (hcolon : c ≠ ':') (hslash : c ≠ '/') :
    c ∉ start := by
  intro hc
  rcases h with hscheme | ⟨rfl, -⟩
  · rcases isAlpha_or_of_mem_start hscheme hc with h' | h' | h'
    · rw [halpha] at h'
      cases h'
    · exact hcolon h'
    · exact hslash h'
  · cases hc

/-- An address without a scheme is not cut short before the dot of its `www.`. -/
theorem address {found : List Char} (hfound : address? rest = some found) :
    StartsUrl start found := by
  rcases h with hscheme | ⟨rfl, hbare⟩
  · exact .inl hscheme
  · refine .inr ⟨rfl, ?_⟩
    have hprefix := (isPrefix_of_address? hfound).map Char.toLower
    by_cases hlength : bareStart.length ≤ (found.map Char.toLower).length
    · exact List.prefix_of_prefix_length_le hbare hprefix hlength
    · -- Three letters without a dot have no second segment.
      have hshort := List.prefix_of_prefix_length_le hprefix hbare (by omega)
      have hdot : '.' ∉ found.map Char.toLower := by
        rw [List.prefix_iff_eq_take.mp hshort]
        intro hmem
        have htake : List.take (found.map Char.toLower).length bareStart <+: "www".toList := by
          refine List.prefix_of_prefix_length_le (List.take_prefix _ _) (by decide) ?_
          rw [List.length_take]
          exact Nat.le_trans (Nat.min_le_left _ _) (Nat.le_of_lt_succ (Nat.lt_of_not_le hlength))
        exact absurd (htake.subset hmem) (by decide)
      refine absurd (isDomain_iff.mp (address?_eq_some hfound).2).dotted ?_
      rw [segments, Text.length_parts, List.countP_eq_zero.mpr]
      · decide
      · intro c hc hmark
        rw [decide_eq_true_eq] at hmark
        subst hmark
        exact hdot (List.mem_map.mpr ⟨'.', (List.takeWhile_prefix _).subset hc, by decide⟩)

end StartsUrl

end Bracketdown.Link
