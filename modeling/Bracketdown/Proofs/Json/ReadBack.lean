import Bracketdown.Json.Numeral
import Bracketdown.Proofs.Json.Spelling
import Bracketdown.Proofs.Json.Layout

/-!
# Reading back what was written

The parts of a written form are read back by the readers for them: `skipBlanks_gap` for blanks,
`readString_quoted` for strings, `readNumeral_digits` for numbers and `readWord_append` for words.
Each lemma leaves the rest of the input open, so that they chain. A number is the one part that the
character behind it can change, hence `Delimited`.
-/

namespace Bracketdown.Json

/-! ## Blanks -/

theorem skipBlanks_gap {cs : List Char} (h : ∀ c ∈ cs, isGap c) (rest : Input) :
    skipBlanks (cs.map some ++ rest) = skipBlanks rest := by
  induction cs with
  | nil => rfl
  | cons c cs ih =>
    have ih := ih fun d hd => h d (List.mem_cons_of_mem _ hd)
    rcases h c (List.mem_cons_self ..) with rfl | rfl | rfl | rfl <;>
      · rw [List.map_cons, List.cons_append, skipBlanks]
        exact ih

theorem skipBlanks_of_not_isGap {c : Char} (h : ¬ isGap c) (rest : Input) :
    skipBlanks (some c :: rest) = some c :: rest := by
  simp only [isGap, not_or] at h
  rw [skipBlanks] <;> simp [h]

theorem skipBlanks_of_all_gap {cs : List Char} (h : ∀ c ∈ cs, isGap c) :
    skipBlanks (cs.map some) = [] := by
  have skip := skipBlanks_gap h []
  rw [List.append_nil] at skip
  rw [skip, skipBlanks] <;> simp

/-! ## Words -/

theorem readWord_append (cs : List Char) (rest : Input) :
    readWord cs (cs.map some ++ rest) = .ok rest := by
  induction cs with
  | nil => rfl
  | cons c cs ih =>
    rw [List.map_cons, List.cons_append, readWord, if_pos rfl]
    exact ih

/-! ## Strings -/

theorem hexQuad_hexDigit {n : Nat} (h : n < 0x20) :
    hexQuad? (some '0') (some '0') (some (hexDigit (n / 16))) (some (hexDigit (n % 16)))
      = some n := by
  have high := hexValue_hexDigit (n := n / 16) (by omega)
  have low := hexValue_hexDigit (n := n % 16) (by omega)
  have zero : hexValue? '0' = some 0 := by decide
  simp only [hexQuad?, high, low, zero, Option.bind_eq_bind, Option.bind_some, Option.pure_def,
    Option.some.injEq]
  omega

theorem not_surrogate_of_lt {n : Nat} (h : n < 0x20) :
    isTrailing n = false ∧ isLeading n = false := by
  simp only [isTrailing, isLeading, Bool.and_eq_false_iff, decide_eq_false_iff_not]
  omega

/-- A character that needs no escape is read as itself. -/
theorem readString_plain {c : Char} (hquote : c ≠ '"') (hback : c ≠ '\\')
    (hlow : ¬ c.toNat < 0x20) (read : List (Option Char)) (rest : Input) :
    readString read (some c :: rest) = readString (some c :: read) rest := by
  rw [readString, if_neg hlow] <;> simp_all

/-- A letter behind a backslash is read as what it stands for. -/
theorem readString_letter {letter c : Char} (h : simpleEscape? letter = some c)
    (read : List (Option Char)) (rest : Input) :
    readString read (some '\\' :: some letter :: rest) = readString (some c :: read) rest := by
  have hne : letter ≠ 'u' := by
    rintro rfl
    cases h
  rw [readString]
  · rw [Option.bind_some, h]
  all_goals simp_all

/-- A number behind a backslash is read as the character with it. -/
theorem readString_number {n : Nat} (h : n < 0x20) (read : List (Option Char)) (rest : Input) :
    readString read (some '\\' :: some 'u' :: some '0' :: some '0' :: some (hexDigit (n / 16))
        :: some (hexDigit (n % 16)) :: rest)
      = readString (some (Char.ofNat n) :: read) rest := by
  obtain ⟨htrailing, hleading⟩ := not_surrogate_of_lt h
  rw [readString, hexQuad_hexDigit h]
  dsimp only
  rw [htrailing, if_neg Bool.false_ne_true, hleading, if_neg Bool.false_ne_true]

/-- The spelling of a character is read as the character. -/
theorem readString_escaped (c : Char) (read : List (Option Char)) (rest : Input) :
    readString read ((escaped c).map some ++ rest) = readString (some c :: read) rest := by
  rcases escaped_cases c with ⟨letter, hletter, h⟩ | ⟨hlow, h⟩ | ⟨hquote, hback, hlow, h⟩
  · rw [h]
    exact readString_letter hletter read rest
  · have hnumber := readString_number hlow read rest
    rw [Char.ofNat_toNat] at hnumber
    rw [h]
    exact hnumber
  · rw [h]
    exact readString_plain hquote hback hlow read rest

theorem finishString_some (cs : List Char) :
    finishString (cs.reverse.map some) = .ok (String.ofList cs) := by
  have all : ∀ cs : List Char, (cs.map some).mapM id = some cs := by
    intro cs
    induction cs with
    | nil => rfl
    | cons c cs ih => simp [List.mapM_cons, ih]
  rw [finishString, List.map_reverse, List.reverse_reverse, all]

theorem readString_escapedAll (cs before : List Char) (rest : Input) :
    readString (before.reverse.map some) ((escapedAll cs).map some ++ some '"' :: rest)
      = .ok (String.ofList (before ++ cs), rest) := by
  induction cs generalizing before with
  | nil =>
    rw [escapedAll, List.flatMap_nil, List.map_nil, List.nil_append, readString,
      finishString_some, List.append_nil]
    rfl
  | cons c cs ih =>
    rw [escapedAll, List.flatMap_cons, List.map_append, List.append_assoc, readString_escaped]
    have step := ih (before ++ [c])
    rw [List.reverse_append, List.append_assoc] at step
    exact step

/-- A written string is read back, from behind its opening quote on. -/
theorem readString_quoted (s : String) (rest : Input) :
    readString [] ((escapedAll s.toList ++ ['"']).map some ++ rest) = .ok (s, rest) := by
  have h := readString_escapedAll s.toList [] rest
  rw [List.nil_append, String.ofList_toList] at h
  rw [List.map_append, List.append_assoc]
  exact h

/-! ## Numbers -/

/-- Whether a character behind a number may continue it. -/
def continuesNumeral (c : Char) : Bool := c.isDigit || c = '.' || c = 'e' || c = 'E'

/-- The input does not start with a character that continues a number. -/
def Delimited (rest : Input) : Prop := ∀ c, rest.head? = some (some c) → continuesNumeral c = false

theorem delimited_cons {c : Char} (h : continuesNumeral c = false) (rest : Input) :
    Delimited (some c :: rest) := by
  intro d hd
  rw [List.head?_cons, Option.some.injEq, Option.some.injEq] at hd
  rw [← hd]
  exact h

theorem continuesNumeral_of_isGap {c : Char} (h : isGap c) : continuesNumeral c = false := by
  rcases h with rfl | rfl | rfl | rfl <;> decide

/-- Blanks in front of a delimited input delimit it as well. -/
theorem Delimited.gap {cs : List Char} (h : ∀ c ∈ cs, isGap c) {rest : Input}
    (hrest : Delimited rest) : Delimited (cs.map some ++ rest) := by
  cases cs with
  | nil => exact hrest
  | cons c cs => exact delimited_cons (continuesNumeral_of_isGap (h c (List.mem_cons_self ..))) _

theorem digit_some {c : Char} (h : c.isDigit = true) :
    digit? (some c) = some (c.toNat - '0'.toNat) := by
  rw [digit?, if_pos h]

theorem Delimited.digit_none {c : Option Char} {rest : Input} (h : Delimited (c :: rest)) :
    digit? c = none := by
  cases c with
  | none => rfl
  | some c =>
    have hc := h c rfl
    simp only [continuesNumeral, Bool.or_eq_false_iff] at hc
    rw [digit?, hc.1.1.1]
    rfl

/-- The input does not start with a digit. -/
def NoDigit (rest : Input) : Prop := ∀ c, rest.head? = some c → digit? c = none

theorem Delimited.noDigit {rest : Input} (h : Delimited rest) : NoDigit rest := by
  intro c hc
  cases rest with
  | nil => cases hc
  | cons d rest =>
    cases hc
    exact h.digit_none

theorem spanDigits_append {cs : List Char} (h : ∀ c ∈ cs, c.isDigit = true) {rest : Input}
    (hrest : NoDigit rest) :
    spanDigits (cs.map some ++ rest) = (cs.map fun c => c.toNat - '0'.toNat, rest) := by
  induction cs with
  | nil =>
    cases rest with
    | nil => rfl
    | cons c rest => rw [List.map_nil, List.nil_append, spanDigits, hrest c rfl]; rfl
  | cons c cs ih =>
    rw [List.map_cons, List.cons_append, spanDigits, digit_some (h c (List.mem_cons_self ..)),
      ih fun d hd => h d (List.mem_cons_of_mem _ hd)]
    rfl

theorem le_ofDigitChars (cs : List Char) (n : Nat) : n ≤ Nat.ofDigitChars 10 cs n := by
  induction cs generalizing n with
  | nil => exact Nat.le_of_eq Nat.ofDigitChars_nil.symm
  | cons c cs ih =>
    rw [Nat.ofDigitChars_cons]
    exact Nat.le_trans (by omega) (ih _)

/-- Digits whose value fits a word are all taken. -/
theorem takeDigits_ofDigitChars (cs : List Char) (n : Nat)
    (h : Nat.ofDigitChars 10 cs n < UInt64.size) :
    takeDigits n (cs.map fun c => c.toNat - '0'.toNat) = (Nat.ofDigitChars 10 cs n, []) := by
  induction cs generalizing n with
  | nil => rw [List.map_nil, takeDigits, Nat.ofDigitChars_nil]
  | cons c cs ih =>
    rw [Nat.ofDigitChars_cons, Nat.mul_comm] at h
    have hstep := Nat.lt_of_le_of_lt (le_ofDigitChars cs _) h
    rw [List.map_cons, takeDigits, if_pos hstep, ih _ h, Nat.ofDigitChars_cons,
      Nat.mul_comm 10 n]

/-- A number of more than one digit does not start with a zero. -/
theorem toDigits_no_leading_zero (n : Nat) {d : Char} {ds : List Char} (hn : 0 < n)
    (h : Nat.toDigits 10 n = d :: ds) : d.toNat - '0'.toNat ≠ 0 := by
  induction n using Nat.strongRecOn generalizing ds with
  | _ n ih =>
    by_cases hlt : n < 10
    · rw [Nat.toDigits_of_lt_base hlt, List.cons.injEq] at h
      have hval := Nat.toNat_digitChar_sub_48_of_lt_ten hlt
      rw [← h.1]
      simp only [Char.reduceToNat]
      omega
    · rw [Nat.toDigits_of_base_le (by decide) (by omega)] at h
      cases hpre : Nat.toDigits 10 (n / 10) with
      | nil => exact absurd hpre Nat.toDigits_ne_nil
      | cons e es =>
        rw [hpre, List.cons_append, List.cons.injEq] at h
        rw [h.1] at hpre
        exact ih (n / 10) (by omega) (by omega) hpre

/-- What stands behind a delimited number is neither a fraction nor an exponent. -/
theorem readNumeral_integer {input rest : Input} {ds : List Nat} {n : Nat}
    (hspan : spanDigits input = (ds, rest)) (hne : ds ≠ [])
    (hzero : ∀ d e es, ds = d :: e :: es → d ≠ 0) (htake : takeDigits 0 ds = (n, []))
    (hrest : Delimited rest) :
    readNumeral false input = .ok (.natural n.toUInt64, rest) := by
  have hplain : ∀ c, rest.head? = some (some c) → c ≠ '.' ∧ c ≠ 'e' ∧ c ≠ 'E' := by
    intro c hc
    have := hrest c hc
    simp only [continuesNumeral, Bool.or_eq_false_iff, decide_eq_false_iff_not] at this
    exact ⟨this.1.1.2, this.1.2, this.2⟩
  rw [readNumeral, hspan]
  split
  next heq => exact absurd (Prod.mk.inj heq).1 hne
  next heq => exact absurd (Prod.mk.inj heq).1 hne
  next d ds' _ heq =>
    exact absurd rfl (hzero 0 d ds' (Prod.mk.inj heq).1)
  next heq =>
    obtain ⟨rfl, rfl⟩ := Prod.mk.inj heq
    rw [htake]
    dsimp only
    split
    next tail => exact absurd rfl (hplain '.' rfl).1
    next tail => exact absurd rfl (hplain 'e' rfl).2.1
    next tail => exact absurd rfl (hplain 'E' rfl).2.2
    next => rfl

/-- A written number that fits a word is read back. -/
theorem readNumeral_digits {n : Nat} (h : n < UInt64.size) {rest : Input} (hrest : Delimited rest) :
    readNumeral false ((digits n).map some ++ rest) = .ok (.natural n.toUInt64, rest) := by
  have hvalue : Nat.ofDigitChars 10 (digits n) 0 = n := by
    rw [digits_eq_toDigits]
    exact Nat.ofDigitChars_ten_toDigits
  refine readNumeral_integer
    (spanDigits_append (fun c hc => isDigit_of_mem_digits hc) hrest.noDigit) ?_ ?_ ?_ hrest
  · rw [digits_eq_toDigits, ne_eq, List.map_eq_nil_iff]
    exact Nat.toDigits_ne_nil
  · intro d e es hds
    obtain ⟨c, cs, hcs, hd, htail⟩ := List.map_eq_cons_iff.mp hds
    rw [← hd]
    refine toDigits_no_leading_zero n ?_ ((digits_eq_toDigits n).symm.trans hcs)
    -- zero itself has one digit only
    rcases Nat.eq_zero_or_pos n with rfl | hpos
    · rw [digits_eq_toDigits, Nat.toDigits_zero, List.cons.injEq] at hcs
      rw [← hcs.2] at htail
      exact absurd htail (by simp)
    · exact hpos
  · rw [takeDigits_ofDigitChars _ _ (by rw [hvalue]; exact h), hvalue]

/-- A written number starts with a digit. -/
theorem digits_eq_cons (n : Nat) : ∃ c cs, digits n = c :: cs ∧ c.isDigit = true := by
  cases hn : digits n with
  | nil => exact absurd ((digits_eq_toDigits n).symm.trans hn) Nat.toDigits_ne_nil
  | cons c cs => exact ⟨c, cs, rfl, isDigit_of_mem_digits (hn ▸ List.mem_cons_self ..)⟩

end Bracketdown.Json
