import Bracketdown.Proofs.Json.Syntax

/-!
# Reading and skipping what is spelled

The readers for strings and numbers and the reader that skips a value are compared with `Syntax`. A
string is read as the characters its letters stand for, and refused when there are none
(`readString_inner`); a number is read as a natural number when it is one that fits a word, and in
no other case (`readNumeral_natural`, `natural_of_readNumeral_spelling`). Whatever is spelled right
is skipped, however large or deep it is (`skipValue_spaced`).
-/

namespace Bracketdown.Json

/-! ## Strings -/

section

variable {read : List (Option Char)} {rest : Input} {n : Nat} {a b c d : Char}

/-- A code unit that is no surrogate is read as its character. -/
theorem readString_unit (h : hexQuad? (some a) (some b) (some c) (some d) = some n)
    (htrailing : isTrailing n = false) (hleading : isLeading n = false) :
    readString read ((Letter.unit a b c d n h).spelling.map some ++ rest)
      = readString (some (Char.ofNat n) :: read) rest := by
  simp only [Letter.spelling, List.map_cons, List.map_nil, List.cons_append, List.nil_append]
  rw [readString, h]
  simp only [htrailing, hleading, Bool.false_eq_true, if_false]

/-- A trailing surrogate does not come first. -/
theorem readString_trailing (h : hexQuad? (some a) (some b) (some c) (some d) = some n)
    (htrailing : isTrailing n = true) :
    readString read ((Letter.unit a b c d n h).spelling.map some ++ rest)
      = .error .loneSurrogate := by
  simp only [Letter.spelling, List.map_cons, List.map_nil, List.cons_append, List.nil_append]
  rw [readString, h]
  simp only [htrailing, if_true]

variable {n' : Nat} {a' b' c' d' : Char}

/-- A leading surrogate and the code unit behind it are read together. -/
theorem readString_leading (h : hexQuad? (some a) (some b) (some c) (some d) = some n)
    (htrailing : isTrailing n = false) (hleading : isLeading n = true)
    (h' : hexQuad? (some a') (some b') (some c') (some d') = some n') :
    readString read ((Letter.unit a b c d n h).spelling.map some
        ++ ((Letter.unit a' b' c' d' n' h').spelling.map some ++ rest))
      = if isTrailing n' then readString (some (ofSurrogates n n') :: read) rest
        else .error .loneSurrogate := by
  simp only [Letter.spelling, List.map_cons, List.map_nil, List.cons_append, List.nil_append]
  rw [readString, h]
  simp only [htrailing, hleading, Bool.false_eq_true, if_false, if_true, h']

/-- A leading surrogate is refused when no code unit follows. -/
theorem readString_leading_alone (h : hexQuad? (some a) (some b) (some c) (some d) = some n)
    (htrailing : isTrailing n = false) (hleading : isLeading n = true)
    (hrest : ∀ c rest', rest = c :: rest' → c = some '\\' →
      ∃ letter rest'', rest' = some letter :: rest'' ∧ letter ≠ 'u') :
    ∃ f, readString read ((Letter.unit a b c d n h).spelling.map some ++ rest) = .error f := by
  simp only [Letter.spelling, List.map_cons, List.map_nil, List.cons_append, List.nil_append]
  rw [readString, h]
  simp only [htrailing, hleading, Bool.false_eq_true, if_false, if_true]
  split
  · exact ⟨_, rfl⟩
  · exact ⟨_, rfl⟩
  · obtain ⟨letter, _, hletter, hne⟩ := hrest _ _ rfl rfl
    cases hletter
    exact absurd rfl hne
  · exact ⟨_, rfl⟩
  · exact ⟨_, rfl⟩

end

/-- The input is a string of these characters, or it is refused when there are none. -/
def ReadAs (cs? : Option (List Char)) (read : List (Option Char)) (rest input : Input) : Prop :=
  match cs? with
  | some cs => readString read input = (finishString (cs.reverse.map some ++ read)).map (·, rest)
  | none => ∃ f, readString read input = .error f

/-- One more character in front of a string. -/
theorem ReadAs.push {cs? : Option (List Char)} {read : List (Option Char)} {c : Char}
    {rest input input' : Input} (h : ReadAs cs? (some c :: read) rest input)
    (hstep : readString read input' = readString (some c :: read) input) :
    ReadAs (cs?.map (c :: ·)) read rest input' := by
  cases cs? with
  | none =>
    obtain ⟨f, hf⟩ := h
    exact ⟨f, hstep.trans hf⟩
  | some cs =>
    show readString read input' = _
    rw [hstep, List.reverse_cons, List.map_append, List.append_assoc]
    exact h

/-- What follows a leading surrogate in vain: letters that start with no code unit. -/
theorem letters_not_unit {letters : List Letter} {rest : Input}
    (h : ∀ a b c d n hn letters', letters ≠ .unit a b c d n hn :: letters') :
    ∀ c rest', (letters.flatMap Letter.spelling).map some ++ some '"' :: rest = c :: rest' →
      c = some '\\' → ∃ letter rest'', rest' = some letter :: rest'' ∧ letter ≠ 'u' := by
  intro c rest' heq hc
  subst hc
  match letters with
  | [] => cases heq
  | .plain c _ hback _ :: letters =>
    cases heq
    exact absurd rfl hback
  | .short letter c hletter :: letters =>
    cases heq
    refine ⟨letter, _, rfl, ?_⟩
    rintro rfl
    cases hletter
  | .unit a b c d n hn :: letters => exact absurd rfl (h a b c d n hn letters)

/-- Letters are read as the characters they stand for, and refused when there are none. -/
theorem readAs_letters (letters : List Letter) (read : List (Option Char)) (rest : Input) :
    ReadAs (Letter.characters? letters) read rest
      ((letters.flatMap Letter.spelling).map some ++ some '"' :: rest) := by
  fun_induction Letter.characters? letters generalizing read with
  | case1 =>
    show readString read (some '"' :: rest) = (finishString read).map (·, rest)
    rw [readString]
    cases finishString read <;> rfl
  | case2 c hquote hback hlow letters ih =>
    refine (ih (some c :: read)).push ?_
    rw [List.flatMap_cons, List.map_append, List.append_assoc]
    exact readString_plain hquote hback hlow _ _
  | case3 letter c hletter letters ih =>
    refine (ih (some c :: read)).push ?_
    rw [List.flatMap_cons, List.map_append, List.append_assoc]
    exact readString_letter hletter _ _
  | case4 a b c d n hn letters htrailing =>
    refine ⟨.loneSurrogate, ?_⟩
    rw [List.flatMap_cons, List.map_append, List.append_assoc, readString_trailing hn htrailing]
  | case5 a b c d n hn htrailing hleading a' b' c' d' n' hn' letters htrailing' ih =>
    refine (ih (some (ofSurrogates n n') :: read)).push ?_
    rw [List.flatMap_cons, List.flatMap_cons, List.map_append, List.map_append, List.append_assoc,
      List.append_assoc, readString_leading hn (Bool.eq_false_iff.mpr htrailing) hleading hn',
      if_pos htrailing']
  | case6 a b c d n hn htrailing hleading a' b' c' d' n' hn' letters htrailing' =>
    refine ⟨.loneSurrogate, ?_⟩
    rw [List.flatMap_cons, List.flatMap_cons, List.map_append, List.map_append, List.append_assoc,
      List.append_assoc, readString_leading hn (Bool.eq_false_iff.mpr htrailing) hleading hn',
      if_neg htrailing']
  | case7 a b c d n hn letters htrailing hleading hunit =>
    -- A leading surrogate that another letter follows, or the closing quote.
    show ∃ f, _
    rw [List.flatMap_cons, List.map_append, List.append_assoc]
    exact readString_leading_alone hn (Bool.eq_false_iff.mpr htrailing) hleading
      (letters_not_unit fun a b c d n hn letters' heq => hunit a b c d n hn letters' heq)
  | case8 a b c d n hn letters htrailing hleading ih =>
    refine (ih (some (Char.ofNat n) :: read)).push ?_
    rw [List.flatMap_cons, List.map_append, List.append_assoc,
      readString_unit hn (Bool.eq_false_iff.mpr htrailing) (Bool.eq_false_iff.mpr hleading)]

theorem readString_inner {q : Quoted} {s : String} (h : q.string? = some s) (rest : Input) :
    readString [] (q.inner.map some ++ some '"' :: rest) = .ok (s, rest) := by
  obtain ⟨cs, hcs, rfl⟩ := Option.map_eq_some_iff.mp h
  have hread := readAs_letters q.letters [] rest
  rw [hcs, ReadAs, List.append_nil, finishString_some] at hread
  exact hread

theorem readString_inner_error {q : Quoted} (h : q.string? = none) (rest : Input) :
    ∃ f, readString [] (q.inner.map some ++ some '"' :: rest) = .error f := by
  have hread := readAs_letters q.letters [] rest
  rw [Option.map_eq_none_iff.mp h] at hread
  exact hread

/-- A skipped string is read past, whatever its letters stand for. -/
theorem skipString_inner (q : Quoted) (rest : Input) :
    skipString (q.inner.map some ++ some '"' :: rest) = .ok rest := by
  have hletters : ∀ letters : List Letter,
      skipString ((letters.flatMap Letter.spelling).map some ++ some '"' :: rest) = .ok rest := by
    intro letters
    induction letters with
    | nil => rw [List.flatMap_nil, List.map_nil, List.nil_append, skipString]
    | cons letter letters ih =>
      rw [List.flatMap_cons, List.map_append, List.append_assoc]
      refine Eq.trans ?_ ih
      cases letter with
      | plain c hquote hback hlow =>
        simp only [Letter.spelling, List.map_cons, List.map_nil, List.cons_append, List.nil_append]
        rw [skipString, if_neg hlow] <;> simp_all
      | short letter c h =>
        have hne : letter ≠ 'u' := by
          rintro rfl
          cases h
        simp only [Letter.spelling, List.map_cons, List.map_nil, List.cons_append, List.nil_append]
        rw [skipString]
        · rw [Option.bind_some, h]
        all_goals simp_all
      | unit a b c d n h =>
        simp only [Letter.spelling, List.map_cons, List.map_nil, List.cons_append, List.nil_append]
        rw [skipString, h]
  exact hletters q.letters

/-! ## Numbers -/

theorem noDigit_cons {c : Char} (h : c.isDigit = false) (rest : Input) :
    NoDigit (some c :: rest) := by
  intro d hd
  cases hd
  rw [digit?, h]
  rfl

namespace Digits

/-- The values of the digits. -/
def values (ds : Digits) : List Nat := ds.chars.map fun c => c.toNat - '0'.toNat

theorem values_ne_nil (ds : Digits) : ds.values ≠ [] := by
  rw [values, ne_eq, List.map_eq_nil_iff]
  exact ds.ne_nil

theorem exists_cons (ds : Digits) : ∃ c cs, ds.chars = c :: cs ∧ c.isDigit = true := by
  cases h : ds.chars with
  | nil => exact absurd h ds.ne_nil
  | cons c cs => exact ⟨c, cs, rfl, ds.isDigit c (h ▸ List.mem_cons_self ..)⟩

/-- Digits are read as far as they go. -/
theorem spanDigits_chars (ds : Digits) {rest : Input} (hrest : NoDigit rest) :
    spanDigits (ds.chars.map some ++ rest) = (ds.values, rest) := spanDigits_append ds.isDigit hrest

end Digits

/-- A character that is a digit with the value zero is `0`. -/
theorem eq_zero_of_isDigit {c : Char} (h : c.isDigit = true) (hzero : c.toNat - '0'.toNat = 0) :
    c = '0' := by
  have hbounds : '0'.toNat ≤ c.toNat := by
    simp only [Char.isDigit, Bool.and_eq_true, decide_eq_true_eq] at h
    exact h.1
  have hval : c.toNat = '0'.toNat := by omega
  exact Char.toNat_inj.mp hval

namespace Number

/-- A number starts with its sign and its digits behind it, or with a digit. -/
theorem skipBlanks_spelling {n : Number} {tokens : List (List Char)} {text : List Char}
    (htext : Spaced (n.spelling :: tokens) text) :
    ∃ rest, Spaced tokens rest ∧ (
      (n.negative = true ∧ skipBlanks (text.map some)
          = some '-' :: ((n.whole.chars ++ n.tail).map some ++ rest.map some))
      ∨ n.negative = false ∧ ∃ c behind, c.isDigit = true
        ∧ skipBlanks (text.map some) = some c :: behind
        ∧ some c :: behind = (n.whole.chars ++ n.tail).map some ++ rest.map some) := by
  cases hnegative : n.negative with
  | true =>
    rw [Number.spelling, hnegative, if_pos rfl, List.singleton_append] at htext
    obtain ⟨rest, hrest, hblanks⟩ := htext.skipBlanks_cons (by decide)
    exact ⟨rest, hrest, .inl ⟨rfl, hblanks⟩⟩
  | false =>
    obtain ⟨c, cs, hcs, hdigit⟩ := n.whole.exists_cons
    have hspelling : n.spelling = c :: (cs ++ n.tail) := by
      rw [Number.spelling, hnegative, hcs]
      rfl
    rw [hspelling] at htext
    have hgap : ¬ isGap c := (Syntax.Starts.ne (v := .number n) (.inr hdigit)).1
    obtain ⟨rest, hrest, hblanks⟩ := htext.skipBlanks_cons hgap
    refine ⟨rest, hrest, .inr ⟨rfl, c, _, hdigit, hblanks, ?_⟩⟩
    rw [hcs]
    rfl

/-- A number of several digits does not start with zero. -/
theorem values_canonical (n : Number) {d e : Nat} {es : List Nat}
    (h : n.whole.values = d :: e :: es) : d ≠ 0 := by
  rintro rfl
  obtain ⟨c, cs, hcs, hc, htail⟩ := List.map_eq_cons_iff.mp h
  have hdigit := n.whole.isDigit c (hcs ▸ List.mem_cons_self ..)
  have hsingle := n.canonical (by rw [hcs, eq_zero_of_isDigit hdigit hc]; rfl)
  rw [hcs, List.cons.injEq] at hsingle
  rw [hsingle.2] at htail
  cases htail

end Number

/-- Digits do not start with another character. -/
theorem Digits.ne_cons (ds : Digits) {c : Char} (hc : c.isDigit = false) (rest rest' : Input) :
    ds.chars.map some ++ rest ≠ some c :: rest' := by
  intro heq
  obtain ⟨d, cs, hcs, hd⟩ := ds.exists_cons
  rw [hcs, List.map_cons, List.cons_append, List.cons.injEq, Option.some.injEq] at heq
  rw [heq.1, hc] at hd
  cases hd

/-- Behind the mark of an exponent its sign and its digits are skipped. -/
theorem skipExponent_spelling (e : Exponent) {rest : Input} (hrest : NoDigit rest) :
    skipExponent ((e.sign ++ e.digits.chars).map some ++ rest) = .ok rest := by
  obtain ⟨d, ds, hds⟩ := List.exists_cons_of_ne_nil e.digits.values_ne_nil
  have hspan := e.digits.spanDigits_chars hrest
  rw [hds] at hspan
  rcases e.sign_eq with hsign | hsign | hsign <;>
    rw [hsign, List.map_append, List.append_assoc]
  · rw [List.map_nil, List.nil_append, skipExponent, hspan]
    · exact fun rest' => e.digits.ne_cons (by decide) rest rest'
    · exact fun rest' => e.digits.ne_cons (by decide) rest rest'
  · rw [List.map_cons, List.map_nil, List.singleton_append, skipExponent, hspan]
  · rw [List.map_cons, List.map_nil, List.singleton_append, skipExponent, hspan]

namespace Number

variable (n : Number) {rest : Input}

theorem tail_of_none (h : n.fraction = none) (rest : Input) :
    n.tail.map some ++ rest = n.scale.map some ++ rest := by
  rw [tail, h]
  rfl

theorem tail_of_some {ds : Digits} (h : n.fraction = some ds) (rest : Input) :
    n.tail.map some ++ rest
      = some '.' :: (ds.chars.map some ++ (n.scale.map some ++ rest)) := by
  rw [tail, h, List.map_append, List.append_assoc]
  rfl

theorem scale_of_none (h : n.exponent = none) (rest : Input) :
    n.scale.map some ++ rest = rest := by
  rw [scale, h]
  rfl

theorem scale_of_some {e : Exponent} (h : n.exponent = some e) (rest : Input) :
    n.scale.map some ++ rest
      = some e.mark :: ((e.sign ++ e.digits.chars).map some ++ rest) := by
  rw [scale, h]
  rfl

/-- Behind the digits there is neither a digit nor a point. -/
theorem head_scale (hrest : Delimited rest) {c : Option Char}
    (hc : (n.scale.map some ++ rest).head? = some c) : digit? c = none ∧ c ≠ some '.' := by
  cases hexponent : n.exponent with
  | none =>
    rw [n.scale_of_none hexponent] at hc
    refine ⟨hrest.noDigit c hc, ?_⟩
    rintro rfl
    exact absurd (hrest '.' hc) (by decide)
  | some e =>
    rw [n.scale_of_some hexponent] at hc
    cases hc
    rcases e.mark_eq with hmark | hmark <;> rw [hmark] <;> decide

theorem noDigit_scale (hrest : Delimited rest) : NoDigit (n.scale.map some ++ rest) :=
  fun _ hc => (n.head_scale hrest hc).1

theorem scale_ne_point (hrest : Delimited rest) (rest' : Input) :
    n.scale.map some ++ rest ≠ some '.' :: rest' := by
  intro heq
  exact (n.head_scale hrest (c := some '.') (by rw [heq]; rfl)).2 rfl

theorem spanDigits_whole (hrest : Delimited rest) :
    spanDigits ((n.whole.chars ++ n.tail).map some ++ rest)
      = (n.whole.values, n.tail.map some ++ rest) := by
  rw [List.map_append, List.append_assoc]
  refine n.whole.spanDigits_chars ?_
  cases hfraction : n.fraction with
  | none =>
    rw [n.tail_of_none hfraction]
    exact n.noDigit_scale hrest
  | some ds =>
    rw [n.tail_of_some hfraction]
    exact noDigit_cons (by decide) _

theorem skipScale_scale (hrest : Delimited rest) :
    skipScale (n.scale.map some ++ rest) = .ok rest := by
  cases hexponent : n.exponent with
  | none =>
    rw [n.scale_of_none hexponent, skipScale]
    · rintro _ rfl
      exact absurd (hrest 'e' rfl) (by decide)
    · rintro _ rfl
      exact absurd (hrest 'E' rfl) (by decide)
  | some e =>
    have hskip := skipExponent_spelling e hrest.noDigit
    rw [n.scale_of_some hexponent]
    rcases e.mark_eq with hmark | hmark
    all_goals
      rw [hmark]
      exact hskip

/-- A number of any size is skipped, from behind its sign on. -/
theorem skipNumeral_spelling (hrest : Delimited rest) :
    skipNumeral ((n.whole.chars ++ n.tail).map some ++ rest) = .ok rest := by
  rw [skipNumeral, n.spanDigits_whole hrest]
  cases hfraction : n.fraction with
  | none =>
    rw [n.tail_of_none hfraction]
    split
    next heq => exact absurd (Prod.mk.inj heq).1 n.whole.values_ne_nil
    next heq => exact absurd rfl (n.values_canonical (Prod.mk.inj heq).1)
    next heq => exact absurd (Prod.mk.inj heq).2 (n.scale_ne_point hrest _)
    next heq =>
      obtain ⟨-, rfl⟩ := Prod.mk.inj heq
      exact n.skipScale_scale hrest
  | some ds =>
    rw [n.tail_of_some hfraction]
    split
    next heq => exact absurd (Prod.mk.inj heq).1 n.whole.values_ne_nil
    next heq => exact absurd rfl (n.values_canonical (Prod.mk.inj heq).1)
    next heq =>
      obtain ⟨-, heq⟩ := Prod.mk.inj heq
      obtain ⟨d, digits, hdigits⟩ := List.exists_cons_of_ne_nil ds.values_ne_nil
      rw [← (List.cons.inj heq).2, ds.spanDigits_chars (n.noDigit_scale hrest), hdigits]
      exact n.skipScale_scale hrest
    next hpoint heq => exact absurd (Prod.mk.inj heq).2.symm (hpoint _)

end Number

/-! A fraction is never taken for a natural number. -/

theorem fractionOf_ne_natural {negative : Bool} {significand : Nat} {exponent : Int} {m : UInt64} :
    fractionOf negative significand exponent ≠ .ok (.natural m) := by
  intro h
  unfold fractionOf at h
  split at h <;> cases h

section

variable {negative : Bool} {significand : Nat} {exponent : Int} {input rest : Input} {m : UInt64}

theorem readExponent_ne_natural :
    readExponent negative significand exponent input ≠ .ok (.natural m, rest) := by
  intro h
  unfold readExponent at h
  split at h
  split at h
  split at h
  · cases h
  · cases h
  · split at h
    · obtain ⟨numeral, hfraction, h⟩ := bind_eq_ok.mp h
      cases h
      exact fractionOf_ne_natural hfraction
    · dsimp only at h
      split at h <;> cases h

theorem readScale_ne_natural :
    readScale negative significand exponent input ≠ .ok (.natural m, rest) := by
  intro h
  unfold readScale at h
  split at h
  · exact readExponent_ne_natural h
  · exact readExponent_ne_natural h
  · obtain ⟨numeral, hfraction, h⟩ := bind_eq_ok.mp h
    cases h
    exact fractionOf_ne_natural hfraction

theorem readFraction_ne_natural :
    readFraction negative significand exponent input ≠ .ok (.natural m, rest) := by
  intro h
  unfold readFraction at h
  split at h
  split at h
  · cases h
  · cases h
  · exact readScale_ne_natural h

theorem integerOf_eq_natural (h : integerOf negative significand = .natural m) :
    negative = false ∧ m = significand.toUInt64 := by
  unfold integerOf at h
  split at h
  · split at h <;> cases h
  next hnegative =>
    cases h
    exact ⟨Bool.eq_false_iff.mpr hnegative, rfl⟩

/-- What is read as a natural number is digits that fit a word, with nothing behind them that goes
on. -/
theorem natural_of_readNumeral {ds : List Nat} {behind : Input}
    (hspan : spanDigits input = (ds, behind))
    (h : readNumeral negative input = .ok (.natural m, rest)) :
    negative = false ∧ rest = behind ∧ (∀ c ∈ ['.', 'e', 'E'], ∀ more, behind ≠ some c :: more)
      ∧ ∃ value, takeDigits 0 ds = (value, []) ∧ m = value.toUInt64 := by
  rw [readNumeral, hspan] at h
  split at h
  · cases h
  · cases h
  · cases h
  next heq =>
    obtain ⟨rfl, rfl⟩ := Prod.mk.inj heq
    generalize hvalue : takeDigits 0 ds = taken at h
    obtain ⟨value, left⟩ := taken
    dsimp only at h
    split at h
    · exact absurd h readFraction_ne_natural
    · exact absurd h readExponent_ne_natural
    · exact absurd h readExponent_ne_natural
    next hpoint he hE =>
      split at h
      next hleft =>
        rw [List.isEmpty_iff] at hleft
        subst hleft
        injection h with h
        obtain ⟨hinteger, rfl⟩ := Prod.mk.inj h
        obtain ⟨hnegative, rfl⟩ := integerOf_eq_natural hinteger
        refine ⟨hnegative, rfl, ?_, value, rfl, rfl⟩
        intro c hc more
        simp only [List.mem_cons, List.not_mem_nil, or_false] at hc
        rcases hc with rfl | rfl | rfl
        · exact hpoint more
        · exact he more
        · exact hE more
      next =>
        obtain ⟨numeral, hfraction, h⟩ := bind_eq_ok.mp h
        cases h
        exact absurd hfraction fractionOf_ne_natural

end

/-- Digits that are all taken have the value that was made of them, which fits a word. -/
theorem ofDigitChars_of_takeDigits {cs : List Char} {n value : Nat} (hn : n < UInt64.size)
    (h : takeDigits n (cs.map fun c => c.toNat - '0'.toNat) = (value, [])) :
    Nat.ofDigitChars 10 cs n = value ∧ value < UInt64.size := by
  induction cs generalizing n with
  | nil =>
    cases h
    exact ⟨Nat.ofDigitChars_nil, hn⟩
  | cons c cs ih =>
    rw [List.map_cons, takeDigits] at h
    split at h
    next hstep =>
      rw [Nat.ofDigitChars_cons, Nat.mul_comm 10 n]
      exact ih hstep h
    · cases h

namespace Number

variable (n : Number) {rest : Input}

theorem natural_eq_some {n : Number} {value : Nat} :
    n.natural? = some value ↔ n.negative = false ∧ n.fraction = none ∧ n.exponent = none
      ∧ Nat.ofDigitChars 10 n.whole.chars 0 = value := by
  rw [natural?]
  cases n.negative <;> cases n.fraction <;> cases n.exponent <;> simp

/-- A natural number that fits a word is read as itself. -/
theorem readNumeral_natural {value : Nat} (h : n.natural? = some value)
    (hvalue : value < UInt64.size) (hrest : Delimited rest) :
    readNumeral false ((n.whole.chars ++ n.tail).map some ++ rest)
      = .ok (.natural value.toUInt64, rest) := by
  obtain ⟨-, hfraction, hexponent, rfl⟩ := natural_eq_some.mp h
  have hspan := n.spanDigits_whole hrest
  rw [n.tail_of_none hfraction, n.scale_of_none hexponent] at hspan
  exact readNumeral_integer hspan n.whole.values_ne_nil (fun _ _ _ => n.values_canonical)
    (takeDigits_ofDigitChars _ _ hvalue) hrest

/-- No other number is read as a natural number. -/
theorem natural_of_readNumeral_spelling {m : UInt64} {behind : Input} {negative : Bool}
    (hrest : Delimited rest)
    (h : readNumeral negative ((n.whole.chars ++ n.tail).map some ++ rest)
      = .ok (.natural m, behind)) :
    negative = false ∧ n.fraction = none ∧ n.exponent = none
      ∧ Nat.ofDigitChars 10 n.whole.chars 0 < UInt64.size := by
  obtain ⟨hnegative, -, hbehind, value, htake, -⟩ :=
    natural_of_readNumeral (n.spanDigits_whole hrest) h
  obtain ⟨hvalue, hlt⟩ := ofDigitChars_of_takeDigits (by decide) htake
  have hfraction : n.fraction = none := by
    cases hfraction : n.fraction with
    | none => rfl
    | some ds =>
      rw [n.tail_of_some hfraction] at hbehind
      exact absurd rfl (hbehind '.' (by decide) _)
  have hexponent : n.exponent = none := by
    cases hexponent : n.exponent with
    | none => rfl
    | some e =>
      rw [n.tail_of_none hfraction, n.scale_of_some hexponent] at hbehind
      rcases e.mark_eq with hmark | hmark
      · exact absurd rfl (hbehind e.mark (by rw [hmark]; decide) _)
      · exact absurd rfl (hbehind e.mark (by rw [hmark]; decide) _)
  exact ⟨hnegative, hfraction, hexponent, hvalue ▸ hlt⟩

end Number

/-! ## Skipping values -/

open Syntax (elementTokens memberTokens membersTokens)

/-- With a step for each of its tokens a value is skipped, and the text behind it is left. -/
def Skipped (v : Syntax) : Prop :=
  ∀ ⦃fuel : Nat⦄ ⦃tokens : List (List Char)⦄ ⦃text : List Char⦄, v.tokens.length ≤ fuel →
    Ending tokens → Spaced (v.tokens ++ tokens) text →
    ∃ rest, Spaced tokens rest ∧ skipValueWith fuel (text.map some) = .ok (rest.map some)

theorem ending_elementTokens (vs : List Syntax) (tokens : List (List Char)) :
    Ending (elementTokens vs ++ tokens) := by
  cases vs with
  | nil => rw [elementTokens]; exact .inr (.inl rfl)
  | cons v vs => rw [elementTokens]; exact .inl rfl

theorem ending_membersTokens (ms : List (Quoted × Syntax)) (tokens : List (List Char)) :
    Ending (membersTokens ms ++ tokens) := by
  cases ms with
  | nil => rw [membersTokens]; exact .inr (.inr rfl)
  | cons m ms => rw [membersTokens]; exact .inl rfl

/-- Elements that can be skipped are skipped up to the closing bracket. -/
theorem skipElements_spaced {vs : List Syntax} {tokens : List (List Char)} :
    ∀ {v : Syntax} (fuel : Nat) {text : List Char}, (∀ w ∈ v :: vs, Skipped w) →
      (v.tokens ++ elementTokens vs).length ≤ fuel →
      Spaced (v.tokens ++ (elementTokens vs ++ tokens)) text →
      ∃ rest, Spaced tokens rest ∧ skipElementsWith fuel (text.map some) = .ok (rest.map some) := by
  induction vs with
  | nil =>
    intro v fuel text hskipped hfuel htext
    rw [List.length_append, elementTokens, List.length_singleton] at hfuel
    obtain ⟨fuel, rfl⟩ := Nat.exists_eq_succ_of_ne_zero (Nat.ne_zero_of_lt hfuel)
    obtain ⟨behind, hbehind, hskip⟩ := hskipped v (List.mem_cons_self ..)
      (Nat.le_of_succ_le_succ hfuel) (ending_elementTokens [] tokens) htext
    rw [elementTokens] at hbehind
    obtain ⟨rest, hrest, hclose⟩ := hbehind.skipBlanks_mark (by decide)
    refine ⟨rest, hrest, ?_⟩
    rw [skipElementsWith, hskip]
    simp only [bind, Except.bind, hclose]
    rfl
  | cons w vs ih =>
    intro v fuel text hskipped hfuel htext
    rw [List.length_append, elementTokens, List.length_cons] at hfuel
    obtain ⟨fuel, rfl⟩ := Nat.exists_eq_succ_of_ne_zero
      (Nat.ne_zero_of_lt (Nat.lt_of_lt_of_le (Nat.lt_add_of_pos_right (Nat.succ_pos _)) hfuel))
    obtain ⟨behind, hbehind, hskip⟩ := hskipped v (List.mem_cons_self ..)
      (show v.tokens.length ≤ fuel by omega) (ending_elementTokens (w :: vs) tokens) htext
    rw [elementTokens, List.cons_append, List.append_assoc] at hbehind
    obtain ⟨next, hnext, hcomma⟩ := hbehind.skipBlanks_mark (by decide)
    obtain ⟨rest, hrest, hskip'⟩ := ih fuel
      (fun u hu => hskipped u (List.mem_cons_of_mem _ hu)) (by omega) hnext
    refine ⟨rest, hrest, ?_⟩
    rw [skipElementsWith, hskip]
    simp only [bind, Except.bind, hcomma]
    exact hskip'

/-- A member starts with the quote of its key, behind which stand a colon and its value. -/
theorem member_spaced {key : Quoted} {v : Syntax} {tokens : List (List Char)} {text : List Char}
    (h : Spaced (memberTokens (key, v) ++ tokens) text) :
    ∃ inner colon value, Spaced (v.tokens ++ tokens) value
      ∧ skipBlanks (text.map some) = some '"' :: inner
      ∧ inner = key.inner.map some ++ some '"' :: colon
      ∧ skipBlanks colon = some ':' :: value.map some := by
  rw [memberTokens, Quoted.spelling, List.cons_append, List.cons_append] at h
  obtain ⟨colon, hcolon, hquote⟩ := h.skipBlanks_cons (by decide)
  obtain ⟨value, hvalue, hmark⟩ := hcolon.skipBlanks_mark (by decide)
  refine ⟨_, colon.map some, value, hvalue, hquote, ?_, hmark⟩
  rw [List.map_append, List.append_assoc]
  rfl

/-- Members whose values can be skipped are skipped up to the closing brace. -/
theorem skipMembers_spaced {ms : List (Quoted × Syntax)} {tokens : List (List Char)} :
    ∀ {m : Quoted × Syntax} (fuel : Nat) {text : List Char}, (∀ n ∈ m :: ms, Skipped n.2) →
      (memberTokens m ++ membersTokens ms).length ≤ fuel →
      Spaced (memberTokens m ++ (membersTokens ms ++ tokens)) text →
      ∃ rest, Spaced tokens rest ∧ skipMembersWith fuel (text.map some) = .ok (rest.map some) := by
  induction ms with
  | nil =>
    rintro ⟨key, v⟩ fuel text hskipped hfuel htext
    rw [List.length_append, memberTokens, List.length_cons, List.length_cons] at hfuel
    obtain ⟨fuel, rfl⟩ := Nat.exists_eq_add_of_le' (show 1 ≤ fuel by omega)
    obtain ⟨inner, colon, value, hvalue, hquote, rfl, hcolon⟩ := member_spaced htext
    obtain ⟨behind, hbehind, hskip⟩ := hskipped (key, v) (List.mem_cons_self ..)
      (show v.tokens.length ≤ fuel by omega) (ending_membersTokens [] tokens) hvalue
    rw [membersTokens] at hbehind
    obtain ⟨rest, hrest, hclose⟩ := hbehind.skipBlanks_mark (by decide)
    refine ⟨rest, hrest, ?_⟩
    rw [skipMembersWith, hquote]
    simp only [skipString_inner, bind, Except.bind, hcolon, hskip, hclose]
    rfl
  | cons n ms ih =>
    rintro ⟨key, v⟩ fuel text hskipped hfuel htext
    rw [List.length_append, memberTokens, List.length_cons, List.length_cons, membersTokens,
      List.length_cons] at hfuel
    obtain ⟨fuel, rfl⟩ := Nat.exists_eq_add_of_le' (show 1 ≤ fuel by omega)
    obtain ⟨inner, colon, value, hvalue, hquote, rfl, hcolon⟩ := member_spaced htext
    obtain ⟨behind, hbehind, hskip⟩ := hskipped (key, v) (List.mem_cons_self ..)
      (show v.tokens.length ≤ fuel by omega) (ending_membersTokens (n :: ms) tokens) hvalue
    rw [membersTokens, List.cons_append, List.append_assoc] at hbehind
    obtain ⟨next, hnext, hcomma⟩ := hbehind.skipBlanks_mark (by decide)
    obtain ⟨rest, hrest, hskip'⟩ := ih fuel
      (fun k hk => hskipped k (List.mem_cons_of_mem _ hk)) (by omega) hnext
    refine ⟨rest, hrest, ?_⟩
    rw [skipMembersWith, hquote]
    simp only [skipString_inner, bind, Except.bind, hcolon, hskip, hcomma]
    exact hskip'

/-- A digit starts a number. -/
theorem skipValueWith_digit {c : Char} (hc : c.isDigit = true) {input rest : Input}
    (h : skipBlanks input = some c :: rest) (fuel : Nat) :
    skipValueWith (fuel + 1) input = skipNumeral (some c :: rest) := by
  rw [skipValueWith, h]
  split
  case h_1 heq => cases heq
  case h_9 heq =>
    rw [← heq, ← (List.cons.inj heq).1, digit_some hc]
    rfl
  all_goals
    next heq =>
      rw [Option.some.inj (List.cons.inj heq).1] at hc
      exact absurd hc (by decide)

theorem skipped_number (n : Number) : Skipped (.number n) := by
  intro fuel tokens text hfuel hending htext
  rw [Syntax.tokens, List.length_singleton] at hfuel
  obtain ⟨fuel, rfl⟩ := Nat.exists_eq_add_of_le' hfuel
  rw [Syntax.tokens, List.singleton_append] at htext
  obtain ⟨rest, hrest, hshape⟩ := Number.skipBlanks_spelling htext
  refine ⟨rest, hrest, ?_⟩
  have hnumeral := n.skipNumeral_spelling (hending.delimited hrest)
  rcases hshape with ⟨-, hminus⟩ | ⟨-, c, behind, hdigit, hblanks, hspelling⟩
  · rw [skipValueWith, hminus]
    exact hnumeral
  · rw [skipValueWith_digit hdigit hblanks, hspelling]
    exact hnumeral

/-- A value of one token is skipped when it is skipped behind blanks. -/
theorem skipped_token {v : Syntax} {c : Char} {cs : List Char} (hv : v.tokens = [c :: cs])
    (hgap : ¬ isGap c)
    (hskip : ∀ fuel input rest, skipBlanks input = some c :: (cs.map some ++ rest) →
      skipValueWith (fuel + 1) input = .ok rest) : Skipped v := by
  intro fuel tokens text hfuel _ htext
  rw [hv, List.length_singleton] at hfuel
  obtain ⟨fuel, rfl⟩ := Nat.exists_eq_add_of_le' hfuel
  rw [hv, List.singleton_append] at htext
  obtain ⟨rest, hrest, hblanks⟩ := htext.skipBlanks_cons hgap
  exact ⟨rest, hrest, hskip fuel _ _ hblanks⟩

theorem skipped_array {vs : List Syntax} (hvs : ∀ v ∈ vs, Skipped v) : Skipped (.array vs) := by
  intro fuel tokens text hfuel _ htext
  cases vs with
  | nil =>
    rw [Syntax.tokens] at hfuel htext
    obtain ⟨fuel, rfl⟩ := Nat.exists_eq_add_of_le' (Nat.le_trans (show 1 ≤ 2 by decide) hfuel)
    obtain ⟨inner, hinner, hopen⟩ := htext.skipBlanks_mark (by decide)
    obtain ⟨rest, hrest, hclose⟩ := hinner.skipBlanks_mark (by decide)
    refine ⟨rest, hrest, ?_⟩
    rw [skipValueWith, hopen]
    simp only [hclose]
  | cons v vs =>
    rw [Syntax.tokens] at hfuel htext
    rw [List.length_cons] at hfuel
    obtain ⟨fuel, rfl⟩ := Nat.exists_eq_add_of_le' (show 1 ≤ fuel by omega)
    rw [List.cons_append, List.append_assoc] at htext
    obtain ⟨inner, hinner, hopen⟩ := htext.skipBlanks_mark (by decide)
    obtain ⟨c, tail, hstarts, htail, hblanks⟩ := Syntax.skipBlanks_spaced hinner
    obtain ⟨rest, hrest, hskip⟩ := skipElements_spaced fuel hvs (Nat.le_of_succ_le_succ hfuel) htail
    refine ⟨rest, hrest, ?_⟩
    rw [skipValueWith, hopen]
    simp only [hblanks]
    split
    next heq => cases heq
    next heq => exact absurd (Option.some.inj (List.cons.inj heq).1) hstarts.ne.2
    next => exact hskip

theorem skipped_object {ms : List (Quoted × Syntax)} (hms : ∀ m ∈ ms, Skipped m.2) :
    Skipped (.object ms) := by
  intro fuel tokens text hfuel _ htext
  cases ms with
  | nil =>
    rw [Syntax.tokens] at hfuel htext
    obtain ⟨fuel, rfl⟩ := Nat.exists_eq_add_of_le' (Nat.le_trans (show 1 ≤ 2 by decide) hfuel)
    obtain ⟨inner, hinner, hopen⟩ := htext.skipBlanks_mark (by decide)
    obtain ⟨rest, hrest, hclose⟩ := hinner.skipBlanks_mark (by decide)
    refine ⟨rest, hrest, ?_⟩
    rw [skipValueWith, hopen]
    simp only [hclose]
  | cons m ms =>
    obtain ⟨key, v⟩ := m
    rw [Syntax.tokens] at hfuel htext
    rw [List.length_cons] at hfuel
    obtain ⟨fuel, rfl⟩ := Nat.exists_eq_add_of_le' (show 1 ≤ fuel by omega)
    rw [List.cons_append, List.append_assoc] at htext
    obtain ⟨inner, hinner, hopen⟩ := htext.skipBlanks_mark (by decide)
    have hkey := hinner
    rw [memberTokens, Quoted.spelling] at hkey
    obtain ⟨tail, htail, hquote⟩ := hkey.skipBlanks_front (by decide)
    have htail : Spaced (memberTokens (key, v) ++ (membersTokens ms ++ tokens)) ('"' :: tail) := by
      rw [memberTokens, Quoted.spelling]
      exact htail
    obtain ⟨rest, hrest, hskip⟩ :=
      skipMembers_spaced fuel hms (Nat.le_of_succ_le_succ hfuel) htail
    refine ⟨rest, hrest, ?_⟩
    rw [skipValueWith, hopen]
    simp only [hquote]
    exact hskip

/-- Every value is skipped: neither its size nor its depth matters, and no string in it is looked
into. -/
theorem skipped (v : Syntax) : Skipped v := by
  induction v using Syntax.valueInduction with
  | null =>
    refine skipped_token (by rw [Syntax.tokens]) (by decide) fun fuel input rest h => ?_
    rw [skipValueWith, h]
    exact readWord_append ['u', 'l', 'l'] rest
  | bool b =>
    cases b with
    | true =>
      refine skipped_token (by rw [Syntax.tokens]; rfl) (by decide) fun fuel input rest h => ?_
      rw [skipValueWith, h]
      exact readWord_append ['r', 'u', 'e'] rest
    | false =>
      refine skipped_token (by rw [Syntax.tokens]; rfl) (by decide) fun fuel input rest h => ?_
      rw [skipValueWith, h]
      exact readWord_append ['a', 'l', 's', 'e'] rest
  | number n => exact skipped_number n
  | string s =>
    refine skipped_token (by rw [Syntax.tokens, Quoted.spelling]) (by decide)
      fun fuel input rest h => ?_
    rw [List.map_append, List.append_assoc] at h
    rw [skipValueWith, h]
    exact skipString_inner s rest
  | array vs ih => exact skipped_array ih
  | object ms ih => exact skipped_object ih

/-- **A value is read past**, whatever its size and its depth. -/
theorem skipValue_spaced (v : Syntax) {tokens : List (List Char)} {text : List Char}
    (hending : Ending tokens) (htext : Spaced (v.tokens ++ tokens) text) :
    ∃ rest, Spaced tokens rest ∧ skipValue (text.map some) = .ok (rest.map some) := by
  have hlength := htext.length_le_of_append v.ne_nil_of_mem_tokens
  exact skipped v (by rw [List.length_map]; omega) hending htext

end Bracketdown.Json
