import Bracketdown.Json.Skip
import Bracketdown.Proofs.Json.ReadBack

/-!
# JSON texts and the values they spell

`Syntax` is a JSON value together with the way its strings and numbers are spelled: a string is a
list of letters, each written as itself or as an escape, and a number keeps its digits. Nothing is
asked of the value: keys may repeat, surrogates may lack their partner, numbers may be of any size.
Every part carries the proof that it is spelled right, so a `Syntax` cannot be anything but JSON.

What a `Syntax` leaves open are the blanks. `Syntax.tokens` lists the tokens of a value, and a text
spells the value when it consists of these tokens with blanks around them at will (`Spells`).
-/

namespace Bracketdown.Json

/-! ## Strings -/

/-- A letter of a string in one of its three spellings. -/
inductive Letter where
  | plain (c : Char) (hquote : c ≠ '"') (hback : c ≠ '\\') (hlow : ¬ c.toNat < 0x20)
  /-- A backslash and a letter that stands for `c`. -/
  | short (letter c : Char) (h : simpleEscape? letter = some c)
  /-- A code unit, written as four hexadecimal digits. -/
  | unit (a b c d : Char) (n : Nat) (h : hexQuad? (some a) (some b) (some c) (some d) = some n)

namespace Letter

/-- How a letter is written. -/
def spelling : Letter → List Char
  | .plain c _ _ _ => [c]
  | .short letter _ _ => ['\\', letter]
  | .unit a b c d _ _ => ['\\', 'u', a, b, c, d]

/-- The characters that letters stand for. There are none when a surrogate stands without its
partner. -/
def characters? : List Letter → Option (List Char)
  | [] => some []
  | .plain c _ _ _ :: letters => (characters? letters).map (c :: ·)
  | .short _ c _ :: letters => (characters? letters).map (c :: ·)
  | .unit _ _ _ _ n _ :: letters =>
    if isTrailing n then none
    else if isLeading n then
      match letters with
      | .unit _ _ _ _ n' _ :: letters =>
        if isTrailing n' then (characters? letters).map (ofSurrogates n n' :: ·) else none
      | _ => none
    else (characters? letters).map (Char.ofNat n :: ·)

end Letter

/-- A string between quotes. -/
structure Quoted where
  letters : List Letter

namespace Quoted

/-- What stands between the quotes. -/
def inner (q : Quoted) : List Char := q.letters.flatMap Letter.spelling

/-- The string with its quotes. -/
def spelling (q : Quoted) : List Char := '"' :: (q.inner ++ ['"'])

/-- The string that is meant. -/
def string? (q : Quoted) : Option String := (Letter.characters? q.letters).map String.ofList

/-- Whether a character may stand for itself. -/
def isPlain (c : Char) : Bool := c ≠ '"' ∧ c ≠ '\\' ∧ ¬ c.toNat < 0x20

/-- A string of characters that all stand for themselves. -/
def plain (cs : List Char) (h : cs.all isPlain = true) : Quoted where
  letters := cs.pmap (fun c (hc : isPlain c = true) =>
      have hplain := of_decide_eq_true hc
      .plain c hplain.1 hplain.2.1 hplain.2.2)
    (List.all_eq_true.mp h)

theorem string?_plain {cs : List Char} (h : cs.all isPlain = true) :
    (plain cs h).string? = some (String.ofList cs) := by
  have hcharacters : Letter.characters? (plain cs h).letters = some cs := by
    unfold plain
    induction cs with
    | nil => rfl
    | cons c cs ih =>
      rw [List.all_cons, Bool.and_eq_true] at h
      show (Letter.characters? _).map (c :: ·) = some (c :: cs)
      rw [ih h.2]
      rfl
  rw [string?, hcharacters]
  rfl

end Quoted

/-! ## Numbers -/

/-- One or more decimal digits. -/
structure Digits where
  chars : List Char
  ne_nil : chars ≠ []
  isDigit : ∀ c ∈ chars, c.isDigit = true

/-- The exponent of a number. -/
structure Exponent where
  mark : Char
  sign : List Char
  digits : Digits
  mark_eq : mark = 'e' ∨ mark = 'E'
  sign_eq : sign = [] ∨ sign = ['+'] ∨ sign = ['-']

/-- A number of any size. -/
structure Number where
  negative : Bool
  whole : Digits
  fraction : Option Digits
  exponent : Option Exponent
  /-- Only zero itself starts with a zero. -/
  canonical : whole.chars.head? = some '0' → whole.chars = ['0']

/-- How an exponent is written. -/
def Exponent.spelling (e : Exponent) : List Char := e.mark :: (e.sign ++ e.digits.chars)

namespace Number

/-- What stands behind the digits: the exponent, if there is one. -/
def scale (n : Number) : List Char := (n.exponent.map Exponent.spelling).getD []

/-- What stands behind the whole part. -/
def tail (n : Number) : List Char :=
  (n.fraction.map fun digits => '.' :: digits.chars).getD [] ++ n.scale

/-- How a number is written. -/
def spelling (n : Number) : List Char :=
  (if n.negative then ['-'] else []) ++ (n.whole.chars ++ n.tail)

/-- The natural number that is meant. A number with a sign, a fraction or an exponent is none. -/
def natural? (n : Number) : Option Nat :=
  if n.negative ∨ n.fraction.isSome ∨ n.exponent.isSome then none
  else some (Nat.ofDigitChars 10 n.whole.chars 0)

end Number

/-! ## Values -/

/-- A JSON value as it is spelled, blanks aside. -/
inductive Syntax where
  | null
  | bool (b : Bool)
  | number (n : Number)
  | string (s : Quoted)
  | array (elements : List Syntax)
  | object (members : List (Quoted × Syntax))

namespace Syntax

mutual

/-- The tokens of a value. -/
def tokens : Syntax → List (List Char)
  | .null => [['n', 'u', 'l', 'l']]
  | .bool b => [word b]
  | .number n => [n.spelling]
  | .string s => [s.spelling]
  | .array [] => [['['], [']']]
  | .array (v :: vs) => ['['] :: (tokens v ++ elementTokens vs)
  | .object [] => [['\x7b'], ['\x7d']]
  | .object (m :: ms) => ['\x7b'] :: (memberTokens m ++ membersTokens ms)

/-- The tokens of the elements after the first, with the closing bracket. -/
def elementTokens : List Syntax → List (List Char)
  | [] => [[']']]
  | v :: vs => [','] :: (tokens v ++ elementTokens vs)

/-- The tokens of one member of an object. -/
def memberTokens : Quoted × Syntax → List (List Char)
  | (key, v) => key.spelling :: [':'] :: tokens v

/-- The tokens of the members after the first, with the closing brace. -/
def membersTokens : List (Quoted × Syntax) → List (List Char)
  | [] => [['\x7d']]
  | m :: ms => [','] :: (memberTokens m ++ membersTokens ms)

end

/-- Whether a value is `null`. -/
def isNull : Syntax → Bool
  | .null => true
  | _ => false

theorem isNull_iff {v : Syntax} : v.isNull = true ↔ v = .null := by
  cases v <;> simp [isNull]

/-- The string that is meant. -/
def string? : Syntax → Option String
  | .string s => s.string?
  | _ => none

/-- The truth value that is meant. -/
def bool? : Syntax → Option Bool
  | .bool b => some b
  | _ => none

/-- The natural number that is meant, as far as it is within the bound. -/
def natural? (bound : Nat) : Syntax → Option Nat
  | .number n => n.natural?.filter (· ≤ bound)
  | _ => none

end Syntax

/-- A text that consists of the given tokens, with blanks around them at will. -/
inductive Spaced : List (List Char) → List Char → Prop
  | blanks {gap : List Char} (h : ∀ c ∈ gap, isGap c) : Spaced [] gap
  | token {gap token : List Char} {tokens : List (List Char)} {text : List Char}
    (h : ∀ c ∈ gap, isGap c) (rest : Spaced tokens text) :
    Spaced (token :: tokens) (gap ++ (token ++ text))

/-- The text spells the value. -/
def Spells (text : String) (v : Syntax) : Prop := Spaced v.tokens text.toList

/-! ## Texts of tokens -/

namespace Spaced

variable {tokens : List (List Char)} {text : List Char}

/-- The tokens may stand without blanks. -/
theorem flatten : ∀ tokens : List (List Char), Spaced tokens tokens.flatten
  | [] => blanks (List.forall_mem_nil isGap)
  | _ :: tokens => token (List.forall_mem_nil isGap) (flatten tokens)

theorem skipBlanks_nil (h : Spaced [] text) : skipBlanks (text.map some) = [] := by
  cases h with
  | blanks hgap => exact skipBlanks_of_all_gap hgap

/-- Behind the blanks the first token starts. -/
theorem skipBlanks_cons {c : Char} {cs : List Char} (h : Spaced ((c :: cs) :: tokens) text)
    (hc : ¬ isGap c) :
    ∃ rest, Spaced tokens rest
      ∧ skipBlanks (text.map some) = some c :: (cs.map some ++ rest.map some) := by
  cases h with
  | token hgap hrest =>
    refine ⟨_, hrest, ?_⟩
    rw [List.map_append, skipBlanks_gap hgap, List.cons_append, List.map_cons,
      skipBlanks_of_not_isGap hc, List.map_append]

/-- The blanks in front of the first token may be left out. -/
theorem skipBlanks_front {c : Char} {cs : List Char} (h : Spaced ((c :: cs) :: tokens) text)
    (hc : ¬ isGap c) :
    ∃ tail, Spaced ((c :: cs) :: tokens) (c :: tail)
      ∧ skipBlanks (text.map some) = some c :: tail.map some := by
  obtain ⟨rest, hrest, hblanks⟩ := h.skipBlanks_cons hc
  refine ⟨cs ++ rest, token (List.forall_mem_nil isGap) hrest, ?_⟩
  rw [hblanks, List.map_append]

/-- Behind the blanks a mark is found. -/
theorem skipBlanks_mark {c : Char} (h : Spaced ([c] :: tokens) text) (hc : ¬ isGap c) :
    ∃ rest, Spaced tokens rest ∧ skipBlanks (text.map some) = some c :: rest.map some :=
  h.skipBlanks_cons hc

/-- As long as no token is empty, there are not more of them than characters. -/
theorem length_le_of_append {front behind : List (List Char)}
    (h : Spaced (front ++ behind) text) (hne : ∀ token ∈ front, token ≠ []) :
    front.length ≤ text.length := by
  induction front generalizing text with
  | nil => exact Nat.zero_le _
  | cons token front ih =>
    cases h with
    | token hgap hrest =>
      have htoken := List.length_pos_iff.mpr (hne _ (List.mem_cons_self ..))
      have hlength := ih hrest fun t ht => hne t (List.mem_cons_of_mem _ ht)
      simp only [List.length_cons, List.length_append]
      omega

end Spaced

/-- A value may be spelled without blanks. -/
theorem Spells.of_toList {text : String} {v : Syntax} (h : text.toList = v.tokens.flatten) :
    Spells text v := by
  rw [Spells, h]
  exact Spaced.flatten v.tokens

/-- What may stand behind a value: a mark that goes on with what is around it, or the end. -/
def Ending : List (List Char) → Prop
  | [] => True
  | token :: _ => token = [','] ∨ token = [']'] ∨ token = ['\x7d']

/-- Where a value ends no number goes on. -/
theorem Ending.delimited {tokens : List (List Char)} (hend : Ending tokens) {text : List Char}
    (h : Spaced tokens text) : Delimited (text.map some) := by
  cases h with
  | blanks hgap =>
    have hdelimited : Delimited (text.map some ++ []) := Delimited.gap hgap fun c hc => by cases hc
    rwa [List.append_nil] at hdelimited
  | token hgap hrest =>
    rw [List.map_append]
    refine Delimited.gap hgap ?_
    rcases hend with rfl | rfl | rfl <;> exact delimited_cons (by decide) _

/-! ## How values start, and induction -/

/-- A number starts with its sign or with a digit. -/
theorem Number.spelling_eq_cons (n : Number) :
    ∃ c cs, n.spelling = c :: cs ∧ (c = '-' ∨ c.isDigit = true) := by
  cases hnegative : n.negative with
  | true => exact ⟨'-', n.whole.chars ++ n.tail, by rw [Number.spelling, hnegative]; rfl, .inl rfl⟩
  | false =>
    obtain ⟨c, cs, hcs⟩ := List.exists_cons_of_ne_nil n.whole.ne_nil
    refine ⟨c, cs ++ n.tail, ?_, .inr (n.whole.isDigit c (hcs ▸ List.mem_cons_self ..))⟩
    rw [Number.spelling, hnegative, hcs]
    rfl

namespace Syntax

/-- The characters that a value may start with. -/
def Starts : Syntax → Char → Prop
  | .null, c => c = 'n'
  | .bool true, c => c = 't'
  | .bool false, c => c = 'f'
  | .number _, c => c = '-' ∨ c.isDigit = true
  | .string _, c => c = '"'
  | .array _, c => c = '['
  | .object _, c => c = '\x7b'

theorem tokens_eq_cons (v : Syntax) :
    ∃ c cs tokens, v.tokens = (c :: cs) :: tokens ∧ v.Starts c := by
  match v with
  | .null => exact ⟨'n', ['u', 'l', 'l'], [], rfl, rfl⟩
  | .bool true => exact ⟨'t', ['r', 'u', 'e'], [], rfl, rfl⟩
  | .bool false => exact ⟨'f', ['a', 'l', 's', 'e'], [], rfl, rfl⟩
  | .number n =>
    obtain ⟨c, cs, hcs, hc⟩ := Number.spelling_eq_cons n
    exact ⟨c, cs, [], by rw [tokens, hcs], hc⟩
  | .string s => exact ⟨'"', s.inner ++ ['"'], [], by rw [tokens, Quoted.spelling], rfl⟩
  | .array [] => exact ⟨'[', [], [[']']], by rw [tokens], rfl⟩
  | .array (v :: vs) => exact ⟨'[', [], _, by rw [tokens], rfl⟩
  | .object [] => exact ⟨'\x7b', [], [['\x7d']], by rw [tokens], rfl⟩
  | .object (m :: ms) => exact ⟨'\x7b', [], _, by rw [tokens], rfl⟩

/-- A value starts neither with a blank nor with the bracket that closes an array. -/
theorem Starts.ne {v : Syntax} {c : Char} (h : v.Starts c) : ¬ isGap c ∧ c ≠ ']' := by
  match v with
  | .number n =>
    rcases h with rfl | hdigit
    · decide
    · constructor
      · rintro (rfl | rfl | rfl | rfl) <;> exact absurd hdigit (by decide)
      · rintro rfl
        exact absurd hdigit (by decide)
  | .null | .bool true | .bool false | .string _ | .array _ | .object _ =>
    rw [show c = _ from h]
    decide

/-! The first character tells what sort of value it is. -/

namespace Starts

variable {v : Syntax}

theorem eq_null (h : v.Starts 'n') : v = .null := by
  match v with
  | .null => rfl
  | .bool true | .bool false | .number _ | .string _ | .array _ | .object _ => simp [Starts] at h

theorem eq_true (h : v.Starts 't') : v = .bool true := by
  match v with
  | .bool true => rfl
  | .null | .bool false | .number _ | .string _ | .array _ | .object _ => simp [Starts] at h

theorem eq_false (h : v.Starts 'f') : v = .bool false := by
  match v with
  | .bool false => rfl
  | .null | .bool true | .number _ | .string _ | .array _ | .object _ => simp [Starts] at h

theorem eq_number {c : Char} (h : v.Starts c) (hc : c = '-' ∨ c.isDigit = true) :
    ∃ n, v = .number n := by
  match v with
  | .number n => exact ⟨n, rfl⟩
  | .null | .bool true | .bool false | .string _ | .array _ | .object _ =>
    rw [show c = _ from h] at hc
    exact absurd hc (by decide)

theorem eq_string (h : v.Starts '"') : ∃ s, v = .string s := by
  match v with
  | .string s => exact ⟨s, rfl⟩
  | .null | .bool true | .bool false | .number _ | .array _ | .object _ => simp [Starts] at h

theorem eq_array (h : v.Starts '[') : ∃ vs, v = .array vs := by
  match v with
  | .array vs => exact ⟨vs, rfl⟩
  | .null | .bool true | .bool false | .number _ | .string _ | .object _ => simp [Starts] at h

theorem eq_object (h : v.Starts '\x7b') : ∃ ms, v = .object ms := by
  match v with
  | .object ms => exact ⟨ms, rfl⟩
  | .null | .bool true | .bool false | .number _ | .string _ | .array _ => simp [Starts] at h

end Starts

/-- The blanks in front of a value may be left out, and the value starts behind them. -/
theorem skipBlanks_spaced {v : Syntax} {tokens : List (List Char)} {text : List Char}
    (h : Spaced (v.tokens ++ tokens) text) :
    ∃ c tail, v.Starts c ∧ Spaced (v.tokens ++ tokens) (c :: tail)
      ∧ skipBlanks (text.map some) = some c :: tail.map some := by
  obtain ⟨c, cs, behind, htokens, hstarts⟩ := tokens_eq_cons v
  rw [htokens] at h ⊢
  obtain ⟨tail, htail, hblanks⟩ := h.skipBlanks_front hstarts.ne.1
  exact ⟨c, tail, hstarts, htail, hblanks⟩

/-- What holds of every value whose elements and members it holds of, holds of all values. -/
theorem valueInduction {motive : Syntax → Prop} (null : motive .null)
    (bool : ∀ b, motive (.bool b)) (number : ∀ n, motive (.number n))
    (string : ∀ s, motive (.string s)) (array : ∀ vs, (∀ v ∈ vs, motive v) → motive (.array vs))
    (object : ∀ ms, (∀ m ∈ ms, motive m.2) → motive (.object ms)) (v : Syntax) : motive v :=
  match v with
  | .null => null
  | .bool b => bool b
  | .number n => number n
  | .string s => string s
  | .array vs => array vs fun v hv =>
    have : sizeOf v < sizeOf vs := List.sizeOf_lt_of_mem hv
    valueInduction null bool number string array object v
  | .object ms => object ms fun m hm =>
    have : sizeOf m < sizeOf ms := List.sizeOf_lt_of_mem hm
    have : sizeOf m.2 < sizeOf m := by
      cases m
      simp only [Prod.mk.sizeOf_spec]
      omega
    valueInduction null bool number string array object m.2
termination_by sizeOf v
decreasing_by
  · simp only [Syntax.array.sizeOf_spec]
    omega
  · simp only [Syntax.object.sizeOf_spec]
    omega

/-! ## The tokens of a value and of its parts -/

/-- The tokens of parts that follow another one, with the mark that closes the value. -/
def followed (close : List Char) : List (List (List Char)) → List (List Char)
  | [] => [close]
  | part :: parts => [','] :: (part ++ followed close parts)

/-- The tokens of parts between two marks. -/
def enclosed (mark close : List Char) : List (List (List Char)) → List (List Char)
  | [] => [mark, close]
  | part :: parts => mark :: (part ++ followed close parts)

theorem elementTokens_eq (vs : List Syntax) :
    elementTokens vs = followed [']'] (vs.map tokens) := by
  induction vs with
  | nil => rw [elementTokens]; rfl
  | cons v vs ih => rw [elementTokens, ih]; rfl

theorem membersTokens_eq (ms : List (Quoted × Syntax)) :
    membersTokens ms = followed ['\x7d'] (ms.map memberTokens) := by
  induction ms with
  | nil => rw [membersTokens]; rfl
  | cons m ms ih => rw [membersTokens, ih]; rfl

theorem tokens_array (vs : List Syntax) :
    (array vs).tokens = enclosed ['['] [']'] (vs.map tokens) := by
  cases vs with
  | nil => rw [tokens]; rfl
  | cons v vs => rw [tokens, elementTokens_eq]; rfl

theorem tokens_object (ms : List (Quoted × Syntax)) :
    (object ms).tokens = enclosed ['\x7b'] ['\x7d'] (ms.map memberTokens) := by
  cases ms with
  | nil => rw [tokens]; rfl
  | cons m ms => rw [tokens, membersTokens_eq]; rfl

section

variable {mark close token : List Char} {parts : List (List (List Char))}

theorem mem_followed (h : token ∈ followed close parts) :
    token = [','] ∨ token = close ∨ ∃ part ∈ parts, token ∈ part := by
  induction parts with
  | nil => exact .inr (.inl (List.mem_singleton.mp h))
  | cons part parts ih =>
    rw [followed, List.mem_cons, List.mem_append] at h
    rcases h with rfl | h | h
    · exact .inl rfl
    · exact .inr (.inr ⟨part, List.mem_cons_self .., h⟩)
    · rcases ih h with h | h | ⟨other, hother, h⟩
      · exact .inl h
      · exact .inr (.inl h)
      · exact .inr (.inr ⟨other, List.mem_cons_of_mem _ hother, h⟩)

/-- No token is empty when those of the parts are not. -/
theorem ne_nil_of_mem_enclosed (hmark : mark ≠ []) (hclose : close ≠ [])
    (hparts : ∀ part ∈ parts, ∀ token ∈ part, token ≠ []) :
    ∀ token ∈ enclosed mark close parts, token ≠ [] := by
  intro token h
  cases parts with
  | nil =>
    simp only [enclosed, List.mem_cons, List.not_mem_nil, or_false] at h
    rcases h with rfl | rfl
    · exact hmark
    · exact hclose
  | cons part parts =>
    rw [enclosed, List.mem_cons, List.mem_append] at h
    rcases h with rfl | h | h
    · exact hmark
    · exact hparts part (List.mem_cons_self ..) token h
    · rcases mem_followed h with rfl | rfl | ⟨other, hother, h⟩
      · exact List.cons_ne_nil _ _
      · exact hclose
      · exact hparts other (List.mem_cons_of_mem _ hother) token h

theorem length_followed (close : List Char) (parts : List (List (List Char))) :
    parts.length < (followed close parts).length
      ∧ ∀ part ∈ parts, part.length ≤ (followed close parts).length := by
  induction parts with
  | nil => exact ⟨Nat.zero_lt_one, fun _ h => absurd h List.not_mem_nil⟩
  | cons first parts ih =>
    simp only [followed, List.length_cons, List.length_append]
    refine ⟨by omega, fun part hpart => ?_⟩
    rcases List.mem_cons.mp hpart with rfl | hpart
    · omega
    · have hle := ih.2 part hpart
      omega

/-- A value has as many tokens as it has parts, and as any of its parts has. -/
theorem length_enclosed (mark close : List Char) (parts : List (List (List Char))) :
    parts.length ≤ (enclosed mark close parts).length
      ∧ ∀ part ∈ parts, part.length ≤ (enclosed mark close parts).length := by
  cases parts with
  | nil => exact ⟨Nat.zero_le _, fun _ h => absurd h List.not_mem_nil⟩
  | cons first parts =>
    have hparts := length_followed close parts
    simp only [enclosed, List.length_cons, List.length_append]
    refine ⟨by omega, fun part hpart => ?_⟩
    rcases List.mem_cons.mp hpart with rfl | hpart
    · omega
    · have hle := hparts.2 part hpart
      omega

end

theorem memberTokens_eq (m : Quoted × Syntax) :
    memberTokens m = m.1.spelling :: [':'] :: m.2.tokens := by
  obtain ⟨key, v⟩ := m
  rw [memberTokens]

theorem ne_nil_of_mem_tokens (v : Syntax) : ∀ token ∈ v.tokens, token ≠ [] := by
  induction v using valueInduction with
  | null => simp [tokens]
  | bool b => cases b <;> simp [tokens, word]
  | number n =>
    obtain ⟨c, cs, hcs, -⟩ := n.spelling_eq_cons
    simp [tokens, hcs]
  | string s => simp [tokens, Quoted.spelling]
  | array vs ih =>
    rw [tokens_array]
    refine ne_nil_of_mem_enclosed (by simp) (by simp) ?_
    rwa [List.forall_mem_map]
  | object ms ih =>
    rw [tokens_object]
    refine ne_nil_of_mem_enclosed (by simp) (by simp) ?_
    rw [List.forall_mem_map]
    intro m hm
    rw [memberTokens_eq, List.forall_mem_cons, List.forall_mem_cons]
    exact ⟨List.cons_ne_nil _ _, List.cons_ne_nil _ _, ih m hm⟩

theorem length_array_tokens (vs : List Syntax) :
    vs.length ≤ (array vs).tokens.length
      ∧ ∀ v ∈ vs, v.tokens.length ≤ (array vs).tokens.length := by
  obtain ⟨hparts, hpart⟩ := length_enclosed ['['] [']'] (vs.map tokens)
  rw [List.length_map] at hparts
  rw [List.forall_mem_map] at hpart
  rw [tokens_array]
  exact ⟨hparts, hpart⟩

theorem length_object_tokens (ms : List (Quoted × Syntax)) :
    ms.length ≤ (object ms).tokens.length
      ∧ ∀ m ∈ ms, m.2.tokens.length ≤ (object ms).tokens.length := by
  obtain ⟨hparts, hpart⟩ := length_enclosed ['\x7b'] ['\x7d'] (ms.map memberTokens)
  rw [List.length_map] at hparts
  rw [List.forall_mem_map] at hpart
  rw [tokens_object]
  refine ⟨hparts, fun m hm => Nat.le_trans ?_ (hpart m hm)⟩
  rw [memberTokens_eq]
  exact Nat.le_add_right _ 2

end Syntax

end Bracketdown.Json
