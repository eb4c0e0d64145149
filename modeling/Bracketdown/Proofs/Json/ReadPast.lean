import Bracketdown.Json.Skip
import Bracketdown.Proofs.Json.Wanted

/-!
# What the readers of a JSON text read past

The readers for the parts of a text are related to the count of wanted brackets by what they leave
behind them. Blanks, words and numbers change nothing (`Flat`), a string is left where it ends
(`most_of_readString`, `most_of_skipString`), and a value that is skipped is not counted at all
(`countAt_of_skipValue`).
-/

namespace Bracketdown.Json

/-! ## Blanks, words and numbers -/

/-- What lies between two places of a text changes neither the count nor what comes next. -/
def Flat (input rest : Input) : Prop :=
  ∀ wanted part opened, countAt wanted part opened input = countAt wanted part opened rest

theorem Flat.refl (input : Input) : Flat input input := fun _ _ _ => rfl

theorem Flat.trans {input mid rest : Input} (h : Flat input mid) (h' : Flat mid rest) :
    Flat input rest := fun wanted part opened =>
  (h wanted part opened).trans (h' wanted part opened)

/-- A plain character may be read past. -/
theorem Flat.cons {c : Option Char} {input rest : Input} (hc : isPlain c = true)
    (h : Flat input rest) : Flat (c :: input) rest := fun wanted part opened =>
  (countAt_plain hc).trans (h wanted part opened)

theorem flat_skipBlanks (input : Input) : Flat input (skipBlanks input) := by
  fun_induction skipBlanks input with
  | case1 rest ih | case2 rest ih | case3 rest ih | case4 rest ih => exact ih.cons rfl
  | case5 => exact Flat.refl _

theorem flat_readWord {cs : List Char} (hplain : (cs.all fun c => isPlain (some c)) = true)
    {input rest : Input} (h : readWord cs input = .ok rest) : Flat input rest := by
  fun_induction readWord cs input with
  | case1 input => cases h; exact Flat.refl _
  | case2 => cases h
  | case3 c cs rest' ih =>
    rw [List.all_cons, Bool.and_eq_true] at hplain
    exact (ih hplain.2 h).cons hplain.1
  | case4 => cases h

theorem isPlain_of_digit {c : Option Char} {d : Nat} (h : digit? c = some d) :
    isPlain c = true := by
  cases c with
  | none => rfl
  | some c =>
    have hdigit : c.isDigit = true := by
      rw [digit?] at h
      split at h
      · assumption
      · cases h
    have hcomma : c ≠ ',' := by
      rintro rfl
      exact absurd hdigit (by decide)
    simp [isPlain, isInert_of_isDigit hdigit, hcomma]

theorem flat_spanDigits (input : Input) : Flat input (spanDigits input).2 := by
  fun_induction spanDigits input with
  | case1 => exact Flat.refl _
  | case2 c rest d hd ds input hspan ih =>
    rw [hspan] at ih
    exact ih.cons (isPlain_of_digit hd)
  | case3 => exact Flat.refl _

theorem flat_of_spanDigits {input rest : Input} {ds : List Nat}
    (h : spanDigits input = (ds, rest)) : Flat input rest := by
  have hflat := flat_spanDigits input
  rw [h] at hflat
  exact hflat

theorem flat_readExponent {negative : Bool} {significand : Nat} {exponent : Int}
    {input rest : Input} {n : Numeral}
    (h : readExponent negative significand exponent input = .ok (n, rest)) : Flat input rest := by
  unfold readExponent at h
  split at h
  next down digits hsign =>
    have hflat : Flat input digits := by
      split at hsign <;> cases hsign
      · exact (Flat.refl _).cons rfl
      · exact (Flat.refl _).cons rfl
      · exact Flat.refl _
    refine hflat.trans ?_
    split at h
    next ds behind hspan =>
      refine (flat_of_spanDigits hspan).trans ?_
      split at h
      · cases h
      · cases h
      · split at h
        · obtain ⟨_, -, h⟩ := bind_eq_ok.mp h
          cases h
          exact Flat.refl _
        · dsimp only at h
          split at h
          · cases h
          · cases h
            exact Flat.refl _

theorem flat_readScale {negative : Bool} {significand : Nat} {exponent : Int}
    {input rest : Input} {n : Numeral}
    (h : readScale negative significand exponent input = .ok (n, rest)) : Flat input rest := by
  unfold readScale at h
  split at h
  · exact (flat_readExponent h).cons rfl
  · exact (flat_readExponent h).cons rfl
  · obtain ⟨_, -, h⟩ := bind_eq_ok.mp h
    cases h
    exact Flat.refl _

theorem flat_readFraction {negative : Bool} {significand : Nat} {exponent : Int}
    {input rest : Input} {n : Numeral}
    (h : readFraction negative significand exponent input = .ok (n, rest)) :
    Flat input rest := by
  unfold readFraction at h
  split at h
  next ds behind hspan =>
    refine (flat_of_spanDigits hspan).trans ?_
    split at h
    · cases h
    · cases h
    · exact flat_readScale h

theorem flat_readNumeral {negative : Bool} {input rest : Input} {n : Numeral}
    (h : readNumeral negative input = .ok (n, rest)) : Flat input rest := by
  unfold readNumeral at h
  split at h
  · cases h
  · cases h
  · cases h
  next ds behind hspan =>
    refine (flat_of_spanDigits hspan).trans ?_
    dsimp only at h
    split at h
    · exact (flat_readFraction h).cons rfl
    · exact (flat_readExponent h).cons rfl
    · exact (flat_readExponent h).cons rfl
    · split at h
      · cases h
        exact Flat.refl _
      · obtain ⟨_, -, h⟩ := bind_eq_ok.mp h
        cases h
        exact Flat.refl _

theorem flat_skipExponent {input rest : Input} (h : skipExponent input = .ok rest) :
    Flat input rest := by
  unfold skipExponent at h
  dsimp only at h
  split at h
  · cases h
  · next hspan =>
    cases h
    refine Flat.trans ?_ (flat_of_spanDigits hspan)
    split
    · exact (Flat.refl _).cons rfl
    · exact (Flat.refl _).cons rfl
    · exact Flat.refl _

theorem flat_skipScale {input rest : Input} (h : skipScale input = .ok rest) :
    Flat input rest := by
  unfold skipScale at h
  split at h
  · exact (flat_skipExponent h).cons rfl
  · exact (flat_skipExponent h).cons rfl
  · cases h
    exact Flat.refl _

theorem flat_skipNumeral {input rest : Input} (h : skipNumeral input = .ok rest) :
    Flat input rest := by
  unfold skipNumeral at h
  split at h
  · cases h
  · cases h
  · next hspan =>
    refine (flat_of_spanDigits hspan).trans ?_
    split at h
    · cases h
    · next hspan' => exact ((flat_of_spanDigits hspan').trans (flat_skipScale h)).cons rfl
  · next hspan => exact (flat_of_spanDigits hspan).trans (flat_skipScale h)

/-! ## Strings -/

variable {wanted : String → Bool} {part : Part} {opened : List Bracket}

/-- A character of a string that neither ends it nor starts an escape. -/
theorem most_inside {c : Option Char} (hquote : c ≠ some '"') (hback : c ≠ some '\\') (rest : Input) :
    Cursor.most wanted ⟨.inside, part, opened⟩ (c :: rest)
      = Cursor.most wanted ⟨.inside, part, opened⟩ rest := by
  have hstep : Cursor.step wanted ⟨.inside, part, opened⟩ c rest = ⟨.inside, part, opened⟩ := by
    simp only [Cursor.step, if_neg hquote, if_neg hback]
  exact Cursor.most_cons_of_step hstep (Nat.le_refl _)

theorem most_escape (c : Option Char) (rest : Input) :
    Cursor.most wanted ⟨.inside, part, opened⟩ (some '\\' :: c :: rest)
      = Cursor.most wanted ⟨.inside, part, opened⟩ rest := by
  rw [Cursor.most_cons_of_step rfl (Nat.le_refl _)]
  exact Cursor.most_cons_of_step rfl (Nat.le_refl _)

theorem most_closeQuote (rest : Input) :
    Cursor.most wanted ⟨.inside, part, opened⟩ (some '"' :: rest)
      = countAt wanted part opened rest :=
  Cursor.most_cons_of_step rfl (Nat.le_refl _)

theorem ne_of_hexValue {c : Char} {n : Nat} (h : hexValue? c = some n) :
    some c ≠ some '"' ∧ some c ≠ some '\\' := by
  constructor <;>
  · intro heq
    cases heq
    cases h

/-- The four digits of an escape are ordinary characters. -/
theorem most_hexQuad {a b c d : Option Char} {n : Nat} (h : hexQuad? a b c d = some n)
    (rest : Input) :
    Cursor.most wanted ⟨.inside, part, opened⟩ (some '\\' :: some 'u' :: a :: b :: c :: d :: rest)
      = Cursor.most wanted ⟨.inside, part, opened⟩ rest := by
  simp only [hexQuad?, Option.bind_eq_bind, Option.bind_eq_some_iff] at h
  obtain ⟨a, rfl, _, ha, b, rfl, _, hb, c, rfl, _, hc, d, rfl, _, hd, -⟩ := h
  rw [most_escape, most_inside (ne_of_hexValue ha).1 (ne_of_hexValue ha).2,
    most_inside (ne_of_hexValue hb).1 (ne_of_hexValue hb).2,
    most_inside (ne_of_hexValue hc).1 (ne_of_hexValue hc).2,
    most_inside (ne_of_hexValue hd).1 (ne_of_hexValue hd).2]

/-- A character that is no backslash at the end of the input and none before another character is
no backslash. -/
theorem ne_backslash {c : Char} {rest : Input} (hend : rest = [] → c = '\\' → False)
    (hmore : ∀ d behind, rest = d :: behind → c = '\\' → False) : some c ≠ some '\\' := by
  intro h
  cases rest with
  | nil => exact hend rfl (Option.some.inj h)
  | cons d behind => exact hmore d behind rfl (Option.some.inj h)

/-- A string is read past from behind its opening quote to behind its closing quote. -/
theorem most_of_readString {read : List (Option Char)} {input rest : Input} {s : String}
    (h : readString read input = .ok (s, rest)) :
    Cursor.most wanted ⟨.inside, part, opened⟩ input = countAt wanted part opened rest := by
  -- The cases left to the end are those in which the string is refused.
  fun_induction readString read input
  case case2 =>
    obtain ⟨_, -, h⟩ := bind_eq_ok.mp h
    cases h
    exact most_closeQuote _
  case case9 hquad _ _ _ _ _ _ _ _ hquad' _ ih =>
    -- Two escapes for a pair of surrogates.
    rw [most_hexQuad hquad, most_hexQuad hquad']
    exact ih h
  case case13 hquad _ _ ih =>
    rw [most_hexQuad hquad]
    exact ih h
  case case15 ih =>
    rw [most_escape]
    exact ih h
  case case17 ih =>
    rw [most_inside (by simp) (by simp)]
    exact ih h
  case case19 hquote hend _ _ hmore _ ih =>
    rw [most_inside (fun h => hquote (Option.some.inj h)) (ne_backslash hend hmore)]
    exact ih h
  all_goals cases h

theorem most_of_skipString {input rest : Input} (h : skipString input = .ok rest) :
    Cursor.most wanted ⟨.inside, part, opened⟩ input = countAt wanted part opened rest := by
  fun_induction skipString input
  case case2 =>
    cases h
    exact most_closeQuote _
  case case5 hquad ih =>
    rw [most_hexQuad hquad]
    exact ih h
  case case7 ih =>
    rw [most_escape]
    exact ih h
  case case9 ih =>
    rw [most_inside (by simp) (by simp)]
    exact ih h
  case case11 hquote hend _ _ hmore _ ih =>
    rw [most_inside (fun h => hquote (Option.some.inj h)) (ne_backslash hend hmore)]
    exact ih h
  all_goals cases h

/-! ## Skipped values -/

mutual

/-- A skipped value does not change the count: the brackets in it are closed again. -/
theorem countAt_of_skipValueWith :
    ∀ (fuel : Nat) {depth : Nat} {input rest : Input}, skipValueWith fuel input = .ok rest →
      countAt wanted (.skipped depth) opened input = countAt wanted (.skipped depth) opened rest
  | 0, _, _, _, h => by cases h
  | fuel + 1, depth, input, rest, h => by
    rw [flat_skipBlanks]
    unfold skipValueWith at h
    split at h
    · cases h
    · next heq => rw [heq]; exact ((flat_readWord rfl h).cons rfl) _ _ _
    · next heq => rw [heq]; exact ((flat_readWord rfl h).cons rfl) _ _ _
    · next heq => rw [heq]; exact ((flat_readWord rfl h).cons rfl) _ _ _
    · next heq => rw [heq]; exact ((flat_skipNumeral h).cons rfl) _ _ _
    · next heq => rw [heq, countAt_quote, Part.behindQuote_skipped]; exact most_of_skipString h
    · next behind heq =>
      rw [heq, countAt_skipped_open (Or.inl rfl), flat_skipBlanks]
      split at h
      · cases h
      · next heq =>
        cases h
        rw [heq, countAt_skipped_close (Or.inl rfl)]
      · exact countAt_of_skipElementsWith fuel h
    · next behind heq =>
      rw [heq, countAt_skipped_open (Or.inr rfl), flat_skipBlanks]
      split at h
      · cases h
      · next heq =>
        cases h
        rw [heq, countAt_skipped_close (Or.inr rfl)]
      · exact countAt_of_skipMembersWith fuel h
    · next heq =>
      rw [heq]
      split at h
      · exact flat_skipNumeral h _ _ _
      · cases h

/-- The elements of a skipped array, up to its closing bracket. -/
theorem countAt_of_skipElementsWith :
    ∀ (fuel : Nat) {depth : Nat} {input rest : Input}, skipElementsWith fuel input = .ok rest →
      countAt wanted (.skipped (depth + 1)) opened input
        = countAt wanted (.skipped depth) opened rest
  | 0, _, _, _, h => by cases h
  | fuel + 1, depth, input, rest, h => by
    obtain ⟨behind, hvalue, h⟩ := bind_eq_ok.mp h
    rw [countAt_of_skipValueWith fuel hvalue, flat_skipBlanks]
    split at h
    · cases h
    · next heq =>
      cases h
      rw [heq, countAt_skipped_close (Or.inl rfl)]
    · next heq =>
      rw [heq, countAt_skipped_comma]
      exact countAt_of_skipElementsWith fuel h
    · cases h

/-- The members of a skipped object, up to its closing brace. -/
theorem countAt_of_skipMembersWith :
    ∀ (fuel : Nat) {depth : Nat} {input rest : Input}, skipMembersWith fuel input = .ok rest →
      countAt wanted (.skipped (depth + 1)) opened input
        = countAt wanted (.skipped depth) opened rest
  | 0, _, _, _, h => by cases h
  | fuel + 1, depth, input, rest, h => by
    rw [flat_skipBlanks]
    unfold skipMembersWith at h
    split at h
    · cases h
    · next heq =>
      obtain ⟨colon, hkey, h⟩ := bind_eq_ok.mp h
      rw [heq, countAt_quote, Part.behindQuote_skipped, most_of_skipString hkey, flat_skipBlanks]
      split at h
      · cases h
      · next heq =>
        obtain ⟨behind, hvalue, h⟩ := bind_eq_ok.mp h
        rw [heq, countAt_plain rfl, countAt_of_skipValueWith fuel hvalue, flat_skipBlanks]
        split at h
        · cases h
        · next heq =>
          cases h
          rw [heq, countAt_skipped_close (Or.inr rfl)]
        · next heq =>
          rw [heq, countAt_skipped_comma]
          exact countAt_of_skipMembersWith fuel h
        · cases h
      · cases h
    · cases h

end

theorem countAt_of_skipValue {depth : Nat} {input rest : Input}
    (h : skipValue input = .ok rest) :
    countAt wanted (.skipped depth) opened input = countAt wanted (.skipped depth) opened rest :=
  countAt_of_skipValueWith _ h

end Bracketdown.Json
