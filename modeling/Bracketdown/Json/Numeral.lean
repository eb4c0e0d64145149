import Bracketdown.Decimal.Shortest
import Bracketdown.Json.Scan

/-!
# Numbers in a JSON text

A number without point and exponent is an integer as long as it fits the machine words: from 0 to
`2 ^ 64 - 1` without a sign and down to `-2 ^ 63` with one. Every other number, and the spelling
`-0`, is a fraction; its digits count only until they no longer fit sixty-four bits, and one past
the range of double precision is a fault.

A number that is skipped must only be spelled right.
-/

namespace Bracketdown.Json

/-- A number that was read. -/
inductive Numeral where
  | natural (n : UInt64)
  /-- The negative integer `-n`. -/
  | negative (n : Nat)
  | fraction (negative : Bool) (magnitude : Binary64)
  deriving Repr, DecidableEq

/-- The value of a decimal digit. -/
def digit? : Option Char → Option Nat
  | some c => if c.isDigit then some (c.toNat - '0'.toNat) else none
  | none => none

/-- The digits that the input starts with. -/
def spanDigits : Input → List Nat × Input
  | [] => ([], [])
  | c :: rest =>
    match digit? c with
    | some d => let (ds, input) := spanDigits rest; (d :: ds, input)
    | none => ([], c :: rest)

/-- Digits appended to a significand as long as it fits sixty-four bits, and the digits left. -/
def takeDigits (significand : Nat) : List Nat → Nat × List Nat
  | [] => (significand, [])
  | d :: ds =>
    if significand * 10 + d < UInt64.size then takeDigits (significand * 10 + d) ds
    else (significand, d :: ds)

/-- A number with a fraction or exponent, from its parts. -/
def fractionOf (negative : Bool) (significand : Nat) (exponent : Int) : Except Fault Numeral :=
  match Binary64.ofDecimal significand exponent with
  | some x => .ok (.fraction negative x)
  | none => .error .numberTooLarge

/-- An exponent past this bound is not computed with: the number is zero or too large. -/
def exponentBound : Nat := UInt32.size / 2 - 1

/-- The value of a list of digits, or none from the first one that leads past the bound. -/
def boundedValue? (bound : Nat) (value : Nat) : List Nat → Option Nat
  | [] => some value
  | d :: ds => if value * 10 + d ≤ bound then boundedValue? bound (value * 10 + d) ds else none

/-- The number whose exponent starts behind the `e`. -/
def readExponent (negative : Bool) (significand : Nat) (exponent : Int) (input : Input) :
    Except Fault (Numeral × Input) := do
  let (down, input) := match input with
    | some '+' :: rest => (false, rest)
    | some '-' :: rest => (true, rest)
    | input => (false, input)
  let (ds, rest) := spanDigits input
  match ds, rest with
  | [], [] => throw (.ended .value)
  | [], _ :: _ => throw .badNumber
  | d :: ds, rest =>
    match boundedValue? exponentBound d ds with
    | some e =>
      return (← fractionOf negative significand (if down then exponent - e else exponent + e), rest)
    | none =>
      -- Zero stays zero, and what is divided by so much becomes zero.
      if significand ≠ 0 ∧ ¬ down then throw .numberTooLarge
      return (.fraction negative .zero, rest)

/-- The number behind its digits, when an exponent may follow. -/
def readScale (negative : Bool) (significand : Nat) (exponent : Int) :
    Input → Except Fault (Numeral × Input)
  | some 'e' :: rest => readExponent negative significand exponent rest
  | some 'E' :: rest => readExponent negative significand exponent rest
  | input => do return (← fractionOf negative significand exponent, input)

/-- The number whose fraction starts behind the point. -/
def readFraction (negative : Bool) (significand : Nat) (exponent : Int) (input : Input) :
    Except Fault (Numeral × Input) :=
  let (ds, rest) := spanDigits input
  match ds, rest with
  | [], [] => .error (.ended .value)
  | [], _ :: _ => .error .badNumber
  | ds, rest =>
    let (significand, left) := takeDigits significand ds
    readScale negative significand (exponent - (ds.length - left.length : Nat)) rest

/-- The integer with the given digits, if no fraction follows and it fits its word. -/
def integerOf (negative : Bool) (significand : Nat) : Numeral :=
  if negative then
    if 0 < significand ∧ significand ≤ UInt64.size / 2 then .negative significand
    else .fraction true ((Binary64.ofNat significand).getD .zero)
  else .natural significand.toUInt64

/-- The number that starts at the input, behind its sign. -/
def readNumeral (negative : Bool) (input : Input) : Except Fault (Numeral × Input) :=
  match spanDigits input with
  | ([], []) => .error (.ended .value)
  | ([], _ :: _) => .error .badNumber
  -- Only zero itself starts with a zero.
  | (0 :: _ :: _, _) => .error .badNumber
  | (ds, rest) =>
    let (significand, left) := takeDigits 0 ds
    match rest with
    -- Each digit that did not fit multiplies the number by ten.
    | some '.' :: rest => readFraction negative significand left.length rest
    | some 'e' :: rest => readExponent negative significand left.length rest
    | some 'E' :: rest => readExponent negative significand left.length rest
    | rest =>
      if left.isEmpty then .ok (integerOf negative significand, rest)
      else do return (← fractionOf negative significand left.length, rest)

/-- The input behind an exponent that is skipped. -/
def skipExponent (input : Input) : Except Fault Input :=
  let input := match input with
    | some '+' :: rest => rest
    | some '-' :: rest => rest
    | input => input
  match spanDigits input with
  | ([], _) => .error .badNumber
  | (_ :: _, rest) => .ok rest

/-- The input behind an exponent, if one starts here. -/
def skipScale : Input → Except Fault Input
  | some 'e' :: rest => skipExponent rest
  | some 'E' :: rest => skipExponent rest
  | input => .ok input

/-- The input behind a number that is skipped, from behind its sign on. -/
def skipNumeral (input : Input) : Except Fault Input :=
  match spanDigits input with
  | ([], _) => .error .badNumber
  | (0 :: _ :: _, _) => .error .badNumber
  | (_, some '.' :: rest) =>
    match spanDigits rest with
    | ([], _) => .error .badNumber
    | (_ :: _, rest) => skipScale rest
  | (_, rest) => skipScale rest

end Bracketdown.Json
