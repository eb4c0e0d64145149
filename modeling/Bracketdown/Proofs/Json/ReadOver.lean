import Bracketdown.Proofs.Json.ReadPast
import Bracketdown.Proofs.Json.Syntax

/-!
# What is read is spelled

The converse of reading what is spelled: whenever a reader gets past a part of a text, that part
spells something. `Cut` says which tokens stand between two places of a text; a string is cut out by
either of its readers, a number by either of its readers, and a skipped value is a value
(`exists_of_skipValue`).
-/

namespace Bracketdown.Json

/-! ## Parts of a text -/

/-- Between two places of a text stand the tokens, with blanks around them. -/
def Cut (tokens : List (List Char)) (input rest : Input) : Prop :=
  ∃ front, input = front.map some ++ rest ∧ Spaced tokens front

theorem Spaced.gap {tokens : List (List Char)} {text gap : List Char} (hgap : ∀ c ∈ gap, isGap c)
    (h : Spaced tokens text) : Spaced tokens (gap ++ text) := by
  cases h with
  | blanks h => exact .blanks (List.forall_mem_append.mpr ⟨hgap, h⟩)
  | token h rest =>
    rw [← List.append_assoc]
    exact .token (List.forall_mem_append.mpr ⟨hgap, h⟩) rest

theorem Spaced.append {tokens tokens' : List (List Char)} {text text' : List Char}
    (h : Spaced tokens text) (h' : Spaced tokens' text') :
    Spaced (tokens ++ tokens') (text ++ text') := by
  induction h with
  | blanks hgap => exact h'.gap hgap
  | token hgap _ ih =>
    rw [List.append_assoc, List.append_assoc]
    exact .token hgap ih

namespace Cut

variable {tokens tokens' : List (List Char)} {input mid rest : Input}

theorem refl (input : Input) : Cut [] input input := ⟨[], rfl, .blanks (List.forall_mem_nil isGap)⟩

theorem trans (h : Cut tokens input mid) (h' : Cut tokens' mid rest) :
    Cut (tokens ++ tokens') input rest := by
  obtain ⟨front, rfl, hfront⟩ := h
  obtain ⟨behind, rfl, hbehind⟩ := h'
  exact ⟨front ++ behind, by rw [List.map_append, List.append_assoc], hfront.append hbehind⟩

/-- A token stands right here. -/
theorem token (token : List Char) (rest : Input) : Cut [token] (token.map some ++ rest) rest := by
  have hspaced := Spaced.flatten [token]
  rw [List.flatten_singleton] at hspaced
  exact ⟨token, rfl, hspaced⟩

theorem blanks (input : Input) : Cut [] input (skipBlanks input) := by
  have hblank : ∀ {c : Char} {rest : Input}, isGap c → Cut [] rest (skipBlanks rest) →
      Cut [] (some c :: rest) (skipBlanks rest) := by
    rintro c rest hc ⟨front, hrest, hfront⟩
    refine ⟨c :: front, congrArg (some c :: ·) hrest, ?_⟩
    show Spaced [] ([c] ++ front)
    exact hfront.gap (List.forall_mem_singleton.mpr hc)
  fun_induction skipBlanks input with
  | case1 rest ih => exact hblank (.inl rfl) ih
  | case2 rest ih => exact hblank (.inr (.inl rfl)) ih
  | case3 rest ih => exact hblank (.inr (.inr (.inl rfl))) ih
  | case4 rest ih => exact hblank (.inr (.inr (.inr rfl))) ih
  | case5 input => exact refl input

/-- The blanks in front of the tokens may be left out. -/
theorem of_skipBlanks (h : Cut tokens (skipBlanks input) rest) : Cut tokens input rest :=
  (blanks input).trans h

/-- A token stands behind the blanks. -/
theorem behind {token : List Char} (h : skipBlanks input = token.map some ++ rest) :
    Cut [token] input rest := by
  refine of_skipBlanks ?_
  rw [h]
  exact Cut.token token rest

theorem mark {c : Char} (h : skipBlanks input = some c :: rest) : Cut [[c]] input rest := behind h

/-- What has no damage has none further on. -/
theorem none_not_mem (h : Cut tokens input rest) (hinput : none ∉ input) : none ∉ rest := by
  obtain ⟨front, rfl, -⟩ := h
  exact fun hrest => hinput (List.mem_append_right _ hrest)

end Cut

/-! ## Strings -/

/-- Behind a quote stand letters and another quote. -/
def Lettered (input rest : Input) : Prop :=
  ∃ letters : List Letter, input = (letters.flatMap Letter.spelling).map some ++ some '"' :: rest

theorem Lettered.cons {input rest : Input} (letter : Letter) (h : Lettered input rest) :
    Lettered (letter.spelling.map some ++ input) rest := by
  obtain ⟨letters, rfl⟩ := h
  refine ⟨letter :: letters, ?_⟩
  rw [List.flatMap_cons, List.map_append, List.append_assoc]

theorem hexQuad?_eq_some {a b c d : Option Char} {n : Nat} (h : hexQuad? a b c d = some n) :
    ∃ a' b' c' d', a = some a' ∧ b = some b' ∧ c = some c' ∧ d = some d'
      ∧ hexQuad? (some a') (some b') (some c') (some d') = some n := by
  have hwhole := h
  simp only [hexQuad?, Option.bind_eq_bind, Option.bind_eq_some_iff] at h
  obtain ⟨a', rfl, _, -, b', rfl, _, -, c', rfl, _, -, d', rfl, -⟩ := h
  exact ⟨a', b', c', d', rfl, rfl, rfl, rfl, hwhole⟩

theorem Lettered.unit {a b c d : Option Char} {n : Nat} {input rest : Input}
    (hquad : hexQuad? a b c d = some n) (h : Lettered input rest) :
    Lettered (some '\\' :: some 'u' :: a :: b :: c :: d :: input) rest := by
  obtain ⟨a, b, c, d, rfl, rfl, rfl, rfl, hquad⟩ := hexQuad?_eq_some hquad
  exact h.cons (.unit a b c d n hquad)

theorem Lettered.short {c : Option Char} {d : Char} {input rest : Input}
    (hletter : c.bind simpleEscape? = some d) (h : Lettered input rest) :
    Lettered (some '\\' :: c :: input) rest := by
  obtain ⟨letter, rfl, hletter⟩ := Option.bind_eq_some_iff.mp hletter
  exact h.cons (.short letter d hletter)

theorem Lettered.plain {c : Char} {input rest : Input} (hquote : c = '"' → False)
    (hend : input = [] → c = '\\' → False)
    (hmore : ∀ d behind, input = d :: behind → c = '\\' → False) (hlow : ¬ c.toNat < 0x20)
    (h : Lettered input rest) : Lettered (some c :: input) rest := by
  have hback : c ≠ '\\' := fun heq => ne_backslash hend hmore (congrArg some heq)
  exact h.cons (.plain c hquote hback hlow)

theorem lettered_of_readString {read : List (Option Char)} {input rest : Input} {s : String}
    (hinput : none ∉ input) (h : readString read input = .ok (s, rest)) : Lettered input rest := by
  -- The cases left to the end are those in which the string is refused.
  fun_induction readString read input
  case case2 =>
    obtain ⟨_, -, h⟩ := bind_eq_ok.mp h
    cases h
    exact ⟨[], rfl⟩
  case case9 hquad _ _ _ _ _ _ _ _ hquad' _ ih =>
    exact .unit hquad (.unit hquad' (ih (by simp_all) h))
  case case13 hquad _ _ ih => exact .unit hquad (ih (by simp_all) h)
  case case15 hletter ih => exact .short hletter (ih (by simp_all) h)
  -- A byte that is part of no character.
  case case17 => exact absurd (List.mem_cons_self ..) hinput
  case case19 hquote hend _ _ hmore hlow ih =>
    exact .plain hquote hend hmore hlow (ih (by simp_all) h)
  all_goals cases h

theorem lettered_of_skipString {input rest : Input} (hinput : none ∉ input)
    (h : skipString input = .ok rest) : Lettered input rest := by
  fun_induction skipString input
  case case2 =>
    cases h
    exact ⟨[], rfl⟩
  case case5 hquad ih => exact .unit hquad (ih (by simp_all) h)
  case case7 hletter ih => exact .short hletter (ih (by simp_all) h)
  case case9 => exact absurd (List.mem_cons_self ..) hinput
  case case11 hquote hend _ _ hmore hlow ih =>
    exact .plain hquote hend hmore hlow (ih (by simp_all) h)
  all_goals cases h

/-- A string behind its opening quote, cut out with it. -/
theorem Lettered.cut {input inner rest : Input} (h : Lettered inner rest)
    (hquote : skipBlanks input = some '"' :: inner) :
    ∃ s : Quoted, Cut [s.spelling] input rest := by
  obtain ⟨letters, rfl⟩ := h
  refine ⟨⟨letters⟩, Cut.behind ?_⟩
  rw [hquote, Quoted.spelling, Quoted.inner, List.map_cons, List.map_append, List.cons_append,
    List.append_assoc]
  rfl

/-! ## Numbers -/

/-- The digits that were spanned, with their values. -/
theorem exists_of_spanDigits {input rest : Input} {ds : List Nat}
    (h : spanDigits input = (ds, rest)) :
    ∃ cs : List Char, (∀ c ∈ cs, c.isDigit = true) ∧ input = cs.map some ++ rest
      ∧ cs.map (fun c => c.toNat - '0'.toNat) = ds := by
  fun_induction spanDigits input generalizing ds with
  | case1 =>
    cases h
    exact ⟨[], by simp, rfl, rfl⟩
  | case2 c input d hd ds' input' hspan ih =>
    cases h
    obtain ⟨cs, hcs, rfl, hvalues⟩ := ih hspan
    cases c with
    | none => cases hd
    | some c =>
      rw [digit?] at hd
      split at hd
      next hdigit =>
        cases hd
        refine ⟨c :: cs, List.forall_mem_cons.mpr ⟨hdigit, hcs⟩, rfl, ?_⟩
        rw [List.map_cons, hvalues]
      · cases hd
  | case3 c input hd =>
    cases h
    exact ⟨[], by simp, rfl, rfl⟩

theorem exists_digits {input rest : Input} {d : Nat} {ds : List Nat}
    (h : spanDigits input = (d :: ds, rest)) :
    ∃ digits : Digits, input = digits.chars.map some ++ rest
      ∧ digits.chars.map (fun c => c.toNat - '0'.toNat) = d :: ds := by
  obtain ⟨cs, hcs, hinput, hvalues⟩ := exists_of_spanDigits h
  have hne : cs ≠ [] := by
    rintro rfl
    cases hvalues
  exact ⟨⟨cs, hne, hcs⟩, hinput, hvalues⟩

/-- Digits of which only zero itself starts with a zero. -/
theorem exists_whole {input rest : Input} {ds : List Nat} (h : spanDigits input = (ds, rest))
    (hne : ds ≠ []) (hzero : ∀ d es, ds ≠ 0 :: d :: es) :
    ∃ digits : Digits, input = digits.chars.map some ++ rest
      ∧ (digits.chars.head? = some '0' → digits.chars = ['0']) := by
  obtain ⟨d, ds, rfl⟩ := List.exists_cons_of_ne_nil hne
  obtain ⟨digits, hinput, hvalues⟩ := exists_digits h
  refine ⟨digits, hinput, fun hhead => ?_⟩
  obtain ⟨cs, hcs⟩ := List.head?_eq_some_iff.mp hhead
  rw [hcs, List.map_cons, List.cons.injEq] at hvalues
  obtain ⟨rfl, hvalues⟩ := hvalues
  cases cs with
  | nil => exact hcs
  | cons c cs => exact absurd (congrArg (0 :: ·) hvalues.symm) (hzero _ _)

/-- What stands behind the mark of an exponent: a sign or none, and digits. -/
def Exponential (input rest : Input) : Prop :=
  ∃ digits d ds, (input = some '+' :: digits ∨ input = some '-' :: digits ∨ input = digits)
    ∧ spanDigits digits = (d :: ds, rest)

/-- What stands behind the digits of a number: an exponent or nothing. -/
def Scaled (input rest : Input) : Prop :=
  (∃ mark behind, (mark = 'e' ∨ mark = 'E') ∧ input = some mark :: behind
      ∧ Exponential behind rest)
    ∨ input = rest

/-- What stands behind the whole part of a number: a fraction or none, and what may follow it. -/
def Fractional (input rest : Input) : Prop :=
  (∃ behind d ds scale, input = some '.' :: behind ∧ spanDigits behind = (d :: ds, scale)
      ∧ Scaled scale rest)
    ∨ Scaled input rest

theorem Exponential.exists_exponent {input rest : Input} {mark : Char} (h : Exponential input rest)
    (hmark : mark = 'e' ∨ mark = 'E') :
    ∃ e : Exponent, some mark :: input = e.spelling.map some ++ rest := by
  obtain ⟨digits, d, ds, hsign, hspan⟩ := h
  obtain ⟨digits, rfl, -⟩ := exists_digits hspan
  rcases hsign with rfl | rfl | rfl
  · exact ⟨⟨mark, ['+'], digits, hmark, .inr (.inl rfl)⟩, rfl⟩
  · exact ⟨⟨mark, ['-'], digits, hmark, .inr (.inr rfl)⟩, rfl⟩
  · exact ⟨⟨mark, [], digits, hmark, .inl rfl⟩, rfl⟩

theorem Scaled.exists_exponent {input rest : Input} (h : Scaled input rest) :
    ∃ e? : Option Exponent, input = ((e?.map Exponent.spelling).getD []).map some ++ rest := by
  rcases h with ⟨mark, behind, hmark, rfl, hexponent⟩ | rfl
  · obtain ⟨e, he⟩ := hexponent.exists_exponent hmark
    exact ⟨some e, he⟩
  · exact ⟨none, rfl⟩

/-- The digits of a number and what stands behind them are a number, with either sign. -/
theorem Fractional.exists_number {input behind rest : Input} {ds : List Nat}
    (h : Fractional behind rest) (hspan : spanDigits input = (ds, behind)) (hne : ds ≠ [])
    (hzero : ∀ d es, ds ≠ 0 :: d :: es) (negative : Bool) :
    ∃ n : Number, n.negative = negative
      ∧ input = (n.whole.chars ++ n.tail).map some ++ rest := by
  obtain ⟨whole, rfl, hcanonical⟩ := exists_whole hspan hne hzero
  rcases h with ⟨fraction, d, ds, scale, rfl, hfraction, hscale⟩ | hscale
  · obtain ⟨digits, rfl, -⟩ := exists_digits hfraction
    obtain ⟨e?, rfl⟩ := hscale.exists_exponent
    refine ⟨⟨negative, whole, some digits, e?, hcanonical⟩, rfl, ?_⟩
    simp [Number.tail, Number.scale]
  · obtain ⟨e?, rfl⟩ := hscale.exists_exponent
    refine ⟨⟨negative, whole, none, e?, hcanonical⟩, rfl, ?_⟩
    simp [Number.tail, Number.scale]

section

variable {negative : Bool} {significand : Nat} {exponent : Int} {input rest : Input} {n : Numeral}

theorem exponential_of_skipExponent (h : skipExponent input = .ok rest) :
    Exponential input rest := by
  unfold skipExponent at h
  dsimp only at h
  split at h
  · cases h
  next hspan =>
    cases h
    split at hspan
    · exact ⟨_, _, _, .inl rfl, hspan⟩
    · exact ⟨_, _, _, .inr (.inl rfl), hspan⟩
    · exact ⟨_, _, _, .inr (.inr rfl), hspan⟩

theorem exponential_of_readExponent
    (h : readExponent negative significand exponent input = .ok (n, rest)) :
    Exponential input rest := by
  unfold readExponent at h
  split at h
  next down digits hsign =>
    have hinput : input = some '+' :: digits ∨ input = some '-' :: digits ∨ input = digits := by
      split at hsign <;> cases hsign
      · exact .inl rfl
      · exact .inr (.inl rfl)
      · exact .inr (.inr rfl)
    split at h
    next ds behind hspan =>
      have hbehind : ds ≠ [] ∧ behind = rest := by
        split at h
        · cases h
        · cases h
        · refine ⟨List.cons_ne_nil _ _, ?_⟩
          split at h
          · obtain ⟨_, -, h⟩ := bind_eq_ok.mp h
            cases h
            rfl
          · dsimp only at h
            split at h
            · cases h
            · cases h
              rfl
      obtain ⟨hne, rfl⟩ := hbehind
      obtain ⟨d, ds, rfl⟩ := List.exists_cons_of_ne_nil hne
      exact ⟨digits, d, ds, hinput, hspan⟩

theorem scaled_of_skipScale (h : skipScale input = .ok rest) : Scaled input rest := by
  unfold skipScale at h
  split at h
  · exact .inl ⟨_, _, .inl rfl, rfl, exponential_of_skipExponent h⟩
  · exact .inl ⟨_, _, .inr rfl, rfl, exponential_of_skipExponent h⟩
  · cases h
    exact .inr rfl

theorem scaled_of_readScale
    (h : readScale negative significand exponent input = .ok (n, rest)) : Scaled input rest := by
  unfold readScale at h
  split at h
  · exact .inl ⟨_, _, .inl rfl, rfl, exponential_of_readExponent h⟩
  · exact .inl ⟨_, _, .inr rfl, rfl, exponential_of_readExponent h⟩
  · obtain ⟨_, -, h⟩ := bind_eq_ok.mp h
    cases h
    exact .inr rfl

theorem fractional_of_readFraction
    (h : readFraction negative significand exponent input = .ok (n, rest)) :
    Fractional (some '.' :: input) rest := by
  unfold readFraction at h
  split at h
  next ds behind hspan =>
    split at h
    · cases h
    · cases h
    next hnil hcons =>
      have hne : ds ≠ [] := by
        rintro rfl
        cases behind with
        | nil => exact hnil rfl rfl
        | cons c behind => exact hcons c behind rfl rfl
      obtain ⟨d, ds, rfl⟩ := List.exists_cons_of_ne_nil hne
      exact .inl ⟨_, _, _, _, rfl, hspan, scaled_of_readScale h⟩

theorem exists_number_of_skipNumeral (h : skipNumeral input = .ok rest) :
    ∃ n : Number, n.negative = negative
      ∧ input = (n.whole.chars ++ n.tail).map some ++ rest := by
  unfold skipNumeral at h
  split at h
  · cases h
  · cases h
  next hne hzero hspan =>
    split at h
    · cases h
    next hfraction =>
      exact Fractional.exists_number
        (.inl ⟨_, _, _, _, rfl, hfraction, scaled_of_skipScale h⟩) hspan (by simpa using hne)
        (by simpa using hzero) negative
  next hne hzero _ hspan =>
    exact Fractional.exists_number (.inr (scaled_of_skipScale h)) hspan (by simpa using hne)
      (by simpa using hzero) negative

theorem exists_number_of_readNumeral (h : readNumeral negative input = .ok (n, rest)) :
    ∃ n : Number, n.negative = negative
      ∧ input = (n.whole.chars ++ n.tail).map some ++ rest := by
  unfold readNumeral at h
  split at h
  · cases h
  · cases h
  · cases h
  next ds behind hnil hcons hzero hspan =>
    have hfractional : Fractional behind rest := by
      dsimp only at h
      split at h
      · exact fractional_of_readFraction h
      · exact .inr (.inl ⟨_, _, .inl rfl, rfl, exponential_of_readExponent h⟩)
      · exact .inr (.inl ⟨_, _, .inr rfl, rfl, exponential_of_readExponent h⟩)
      · refine .inr (.inr ?_)
        split at h
        · cases h
          rfl
        · obtain ⟨_, -, h⟩ := bind_eq_ok.mp h
          cases h
          rfl
    have hne : ds ≠ [] := by
      rintro rfl
      cases behind with
      | nil => exact hnil rfl rfl
      | cons c behind => exact hcons c behind rfl rfl
    exact hfractional.exists_number hspan hne (by simpa using hzero) negative

end

/-- A number that is cut out with its sign. -/
theorem exists_cut_number {negative : Bool} {input inner rest : Input}
    (h : ∃ n : Number, n.negative = negative
      ∧ inner = (n.whole.chars ++ n.tail).map some ++ rest)
    (hsign : skipBlanks input = (if negative then [some '-'] else []) ++ inner) :
    ∃ n : Number, Cut [n.spelling] input rest := by
  obtain ⟨n, rfl, rfl⟩ := h
  refine ⟨n, Cut.behind ?_⟩
  rw [hsign, Number.spelling]
  simp only [List.map_append, List.append_assoc]
  cases n.negative <;> rfl

/-! ## Values -/

open Syntax (elementTokens memberTokens membersTokens)

theorem eq_of_readWord {cs : List Char} {input rest : Input} (h : readWord cs input = .ok rest) :
    input = cs.map some ++ rest := by
  fun_induction readWord cs input with
  | case1 => cases h; rfl
  | case2 => cases h
  | case3 c cs rest' ih => rw [ih h]; rfl
  | case4 => cases h

/-- A word is cut out. -/
theorem cut_word {c : Char} {cs : List Char} {input inner rest : Input}
    (hblanks : skipBlanks input = some c :: inner) (h : readWord cs inner = .ok rest) :
    Cut [c :: cs] input rest := by
  refine Cut.behind ?_
  rw [hblanks, eq_of_readWord h]
  rfl

/-- What no damage stands in front of is not damaged behind a character either. -/
theorem none_not_mem_of_cons {c : Char} {input inner : Input} (hinput : none ∉ input)
    (h : skipBlanks input = some c :: inner) : none ∉ inner := (Cut.mark h).none_not_mem hinput

mutual

/-- A skipped value is a value. -/
theorem exists_of_skipValueWith :
    ∀ (fuel : Nat) {input rest : Input}, none ∉ input → skipValueWith fuel input = .ok rest →
      ∃ v : Syntax, Cut v.tokens input rest
  | 0, _, _, _, h => by cases h
  | fuel + 1, input, rest, hinput, h => by
    unfold skipValueWith at h
    split at h
    · cases h
    next heq => exact ⟨.null, cut_word heq h⟩
    next heq => exact ⟨.bool true, cut_word heq h⟩
    next heq => exact ⟨.bool false, cut_word heq h⟩
    next heq =>
      obtain ⟨n, hn⟩ := @exists_cut_number true _ _ _ (exists_number_of_skipNumeral h) heq
      exact ⟨.number n, hn⟩
    next heq =>
      obtain ⟨s, hs⟩ := (lettered_of_skipString (none_not_mem_of_cons hinput heq) h).cut heq
      exact ⟨.string s, hs⟩
    next inner heq =>
      have hinner := none_not_mem_of_cons hinput heq
      split at h
      · cases h
      next heq' =>
        cases h
        exact ⟨.array [], (Cut.mark heq).trans (Cut.mark heq')⟩
      next =>
        obtain ⟨v, vs, helements⟩ :=
          exists_of_skipElementsWith fuel ((Cut.blanks inner).none_not_mem hinner) h
        exact ⟨.array (v :: vs), (Cut.mark heq).trans helements.of_skipBlanks⟩
    next inner heq =>
      have hinner := none_not_mem_of_cons hinput heq
      split at h
      · cases h
      next heq' =>
        cases h
        exact ⟨.object [], (Cut.mark heq).trans (Cut.mark heq')⟩
      next =>
        obtain ⟨m, ms, hmembers⟩ :=
          exists_of_skipMembersWith fuel ((Cut.blanks inner).none_not_mem hinner) h
        exact ⟨.object (m :: ms), (Cut.mark heq).trans hmembers.of_skipBlanks⟩
    next heq =>
      split at h
      · obtain ⟨n, hn⟩ := @exists_cut_number false _ _ _ (exists_number_of_skipNumeral h) heq
        exact ⟨.number n, hn⟩
      · cases h

/-- The elements of a skipped array are values, with commas between them. -/
theorem exists_of_skipElementsWith :
    ∀ (fuel : Nat) {input rest : Input}, none ∉ input → skipElementsWith fuel input = .ok rest →
      ∃ (v : Syntax) (vs : List Syntax), Cut (v.tokens ++ elementTokens vs) input rest
  | 0, _, _, _, h => by cases h
  | fuel + 1, input, rest, hinput, h => by
    obtain ⟨behind, hvalue, h⟩ := bind_eq_ok.mp h
    obtain ⟨v, hv⟩ := exists_of_skipValueWith fuel hinput hvalue
    have hbehind := hv.none_not_mem hinput
    split at h
    · cases h
    next heq =>
      cases h
      exact ⟨v, [], hv.trans (Cut.mark heq)⟩
    next heq =>
      obtain ⟨w, ws, hws⟩ := exists_of_skipElementsWith fuel (none_not_mem_of_cons hbehind heq) h
      exact ⟨v, w :: ws, hv.trans ((Cut.mark heq).trans hws)⟩
    · cases h

/-- The members of a skipped object are members, with commas between them. -/
theorem exists_of_skipMembersWith :
    ∀ (fuel : Nat) {input rest : Input}, none ∉ input → skipMembersWith fuel input = .ok rest →
      ∃ (m : Quoted × Syntax) (ms : List (Quoted × Syntax)),
        Cut (memberTokens m ++ membersTokens ms) input rest
  | 0, _, _, _, h => by cases h
  | fuel + 1, input, rest, hinput, h => by
    unfold skipMembersWith at h
    split at h
    · cases h
    next heq =>
      obtain ⟨colon, hkey, h⟩ := bind_eq_ok.mp h
      obtain ⟨key, hkey⟩ := (lettered_of_skipString (none_not_mem_of_cons hinput heq) hkey).cut heq
      have hcolon := hkey.none_not_mem hinput
      split at h
      · cases h
      next heq =>
        obtain ⟨behind, hvalue, h⟩ := bind_eq_ok.mp h
        obtain ⟨v, hv⟩ := exists_of_skipValueWith fuel (none_not_mem_of_cons hcolon heq) hvalue
        have hmember := hkey.trans ((Cut.mark heq).trans hv)
        have hbehind := hmember.none_not_mem hinput
        split at h
        · cases h
        next heq =>
          cases h
          exact ⟨(key, v), [], hmember.trans (Cut.mark heq)⟩
        next heq =>
          obtain ⟨m, ms, hms⟩ :=
            exists_of_skipMembersWith fuel (none_not_mem_of_cons hbehind heq) h
          exact ⟨(key, v), m :: ms, hmember.trans ((Cut.mark heq).trans hms)⟩
        · cases h
      · cases h
    · cases h

end

/-- **What is skipped is a value.** -/
theorem exists_of_skipValue {input rest : Input} (hinput : none ∉ input)
    (h : skipValue input = .ok rest) : ∃ v : Syntax, Cut v.tokens input rest :=
  exists_of_skipValueWith _ hinput h

end Bracketdown.Json
