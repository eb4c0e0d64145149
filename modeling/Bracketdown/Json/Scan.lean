import Bracketdown.Json.Fault

/-!
# Reading the small parts of a JSON text

The input is a list of characters in which `none` stands for a byte that is part of no character;
such a byte is a fault only inside a string whose content is wanted. A reader takes the input from
the current place on and gives what it read with the input behind it.
-/

namespace Bracketdown

/-- Two steps give a result when the first does and the second does from there. -/
theorem bind_eq_ok {ε α β : Type} {x : Except ε α} {f : α → Except ε β} {b : β} :
    x >>= f = .ok b ↔ ∃ a, x = .ok a ∧ f a = .ok b := by
  cases x with
  | error e => exact ⟨fun h => (by cases h), fun ⟨_, h, _⟩ => (by cases h)⟩
  | ok a => exact ⟨fun h => ⟨a, rfl, h⟩, fun ⟨_, h, hb⟩ => by cases h; exact hb⟩

namespace Json

/-- A text, with `none` for a byte that is part of no character. -/
abbrev Input := List (Option Char)

/-- The input behind any blanks. -/
def skipBlanks : Input → Input
  | some ' ' :: rest => skipBlanks rest
  | some '\t' :: rest => skipBlanks rest
  | some '\n' :: rest => skipBlanks rest
  | some '\r' :: rest => skipBlanks rest
  | input => input

/-- The input behind the remaining letters of a word. -/
def readWord : List Char → Input → Except Fault Input
  | [], input => .ok input
  | _ :: _, [] => .error (.ended .value)
  | c :: cs, d :: rest => if d = some c then readWord cs rest else .error .expectedWord

/-- The value of a hexadecimal digit. -/
def hexValue? (c : Char) : Option Nat :=
  if '0' ≤ c ∧ c ≤ '9' then some (c.toNat - '0'.toNat)
  else if 'a' ≤ c ∧ c ≤ 'f' then some (c.toNat - 'a'.toNat + 10)
  else if 'A' ≤ c ∧ c ≤ 'F' then some (c.toNat - 'A'.toNat + 10)
  else none

/-- The value of four hexadecimal digits. -/
def hexQuad? (a b c d : Option Char) : Option Nat := do
  let a ← hexValue? (← a)
  let b ← hexValue? (← b)
  let c ← hexValue? (← c)
  let d ← hexValue? (← d)
  return ((a * 16 + b) * 16 + c) * 16 + d

/-- The fault of an escape with fewer than four characters behind it: the text has ended, unless
what is left still fills four bytes. -/
def shortEscape (input : Input) : Fault :=
  let bytes := input.foldl (fun n c => n + (c.map Char.utf8Size).getD 1) 0
  if bytes < 4 then .ended .string else .badEscape

/-- The character of an escape with one letter. -/
def simpleEscape? : Char → Option Char
  | '"' => some '"'
  | '\\' => some '\\'
  | '/' => some '/'
  | 'b' => some '\x08'
  | 'f' => some '\x0c'
  | 'n' => some '\n'
  | 'r' => some '\r'
  | 't' => some '\t'
  | _ => none

/-- The string that is complete: every part of it must be a character. -/
def finishString (read : List (Option Char)) : Except Fault String :=
  match read.reverse.mapM id with
  | some cs => .ok (String.ofList cs)
  | none => .error .notUnicode

/-- Whether a code unit is a leading surrogate. -/
def isLeading (n : Nat) : Bool := 0xd800 ≤ n && n ≤ 0xdbff

/-- Whether a code unit is a trailing surrogate. -/
def isTrailing (n : Nat) : Bool := 0xdc00 ≤ n && n ≤ 0xdfff

/-- The character of a pair of surrogates. -/
def ofSurrogates (leading trailing : Nat) : Char :=
  Char.ofNat ((leading - 0xd800) * 0x400 + (trailing - 0xdc00) + 0x10000)

/-- The rest of a string behind its opening quote, after the parts in `read` (last first). -/
def readString (read : List (Option Char)) : Input → Except Fault (String × Input)
  | [] => .error (.ended .string)
  | some '"' :: rest => do return (← finishString read, rest)
  | [some '\\'] => .error (.ended .string)
  | some '\\' :: some 'u' :: a :: b :: c :: d :: rest =>
    match hexQuad? a b c d with
    | none => .error .badEscape
    | some n =>
      if isTrailing n then .error .loneSurrogate
      else if isLeading n then
        match rest with
        | [] => .error (.ended .string)
        -- A leading surrogate must have its partner right behind it.
        | [some '\\'] => .error (.ended .string)
        | some '\\' :: some 'u' :: a' :: b' :: c' :: d' :: rest' =>
          match hexQuad? a' b' c' d' with
          | none => .error .badEscape
          | some n' =>
            if isTrailing n' then readString (some (ofSurrogates n n') :: read) rest'
            else .error .loneSurrogate
        | some '\\' :: some 'u' :: rest' => .error (shortEscape rest')
        | _ => .error .surrogateCutShort
      else readString (some (Char.ofNat n) :: read) rest
  | some '\\' :: some 'u' :: rest => .error (shortEscape rest)
  | some '\\' :: c :: rest =>
    match c.bind simpleEscape? with
    | some d => readString (some d :: read) rest
    | none => .error .badEscape
  | none :: rest => readString (none :: read) rest
  | some c :: rest =>
    if c.toNat < 0x20 then .error .controlInString else readString (some c :: read) rest

/-- The input behind a string whose content is not wanted, from behind its opening quote on. Its
escapes must be whole, but surrogates need no partner. -/
def skipString : Input → Except Fault Input
  | [] => .error (.ended .string)
  | some '"' :: rest => .ok rest
  | [some '\\'] => .error (.ended .string)
  | some '\\' :: some 'u' :: a :: b :: c :: d :: rest =>
    match hexQuad? a b c d with
    | none => .error .badEscape
    | some _ => skipString rest
  | some '\\' :: some 'u' :: rest => .error (shortEscape rest)
  | some '\\' :: c :: rest =>
    match c.bind simpleEscape? with
    | some _ => skipString rest
    | none => .error .badEscape
  | none :: rest => skipString rest
  | some c :: rest => if c.toNat < 0x20 then .error .controlInString else skipString rest

end Json

end Bracketdown
