import Bracketdown.Decimal.Binary64

/-!
# The shortest decimal that reads back

Among the decimals that round to a given double precision number, `shortest` picks one with the
fewest digits and, of those, the nearest. `Layout` holds the decisions about how the digits are laid
out, and `Binary64.text` writes a number with the layout of this library's messages.
-/

namespace Bracketdown

/-- The decimal `digits · 10 ^ exponent`. -/
structure Decimal where
  digits : Nat
  exponent : Int
  deriving Repr, DecidableEq

namespace Binary64

/-- Whether the decimal `d · 10 ^ k` rounds to the number `m · 2 ^ e`: it lies between the middles
to the two neighbours, and on a middle only if `m` is even. Below a power of two the lower neighbour
is half as far away. -/
def readsAs (x : Binary64) (d : Nat) (k : Int) : Bool :=
  let closeBelow : Bool := x.significand = twoTo 52 && -1074 < x.exponent
  -- All sides are multiplied by `4 · 2 ^ -e` and by `10 ^ -k`, where these are whole.
  let value := 4 * d * tenTo k.toNat * twoTo (-x.exponent).toNat
  let ofMiddle (n : Nat) : Nat := n * twoTo x.exponent.toNat * tenTo (-k).toNat
  let low := ofMiddle (4 * x.significand - (if closeBelow then 1 else 2))
  let high := ofMiddle (4 * x.significand + 2)
  if x.significand % 2 = 0 then low ≤ value && value ≤ high else low < value && value < high

/-- The distance of `d · 10 ^ k` from the number, in a unit that does not depend on `d`. -/
def distance (x : Binary64) (d : Nat) (k : Int) : Nat :=
  let value := d * tenTo k.toNat * twoTo (-x.exponent).toNat
  let exact := x.significand * twoTo x.exponent.toNat * tenTo (-k).toNat
  (value - exact) + (exact - value)

/-- The whole number of units `10 ^ k` in the number. -/
def unitsBelow (x : Binary64) (k : Int) : Nat :=
  (x.significand * twoTo x.exponent.toNat * tenTo (-k).toNat)
    / (twoTo (-x.exponent).toNat * tenTo k.toNat)

/-- A decimal with unit `10 ^ k` that reads back as the number, the nearer one if both neighbours
do. -/
def onGrid? (x : Binary64) (k : Int) : Option Decimal :=
  let d := x.unitsBelow k
  match x.readsAs d k, x.readsAs (d + 1) k with
  | true, true => some ⟨if x.distance d k ≤ x.distance (d + 1) k then d else d + 1, k⟩
  | true, false => some ⟨d, k⟩
  | false, true => some ⟨d + 1, k⟩
  | false, false => none

/-- The exponent of the number's leading decimal digit. -/
def magnitude (x : Binary64) : Int :=
  let e : Int := ((x.significand * twoTo x.exponent.toNat) / twoTo (-x.exponent).toNat : Nat)
  if 0 < e then (Nat.toDigits 10 e.toNat).length - 1
  else
    -- The first `n` for which the number times `10 ^ n` reaches one.
    let enough (n : Nat) : Bool := twoTo (-x.exponent).toNat ≤ x.significand * tenTo n
    match (List.range 400).find? enough with
    | some n => -n
    | none => 0

/-- The shortest decimal that reads back as a number other than zero: grids of one digit, two digits
and so on are tried until one holds such a decimal. -/
def shortest (x : Binary64) : Decimal :=
  let found := (List.range 18).findSome? fun n : Nat => x.onGrid? (x.magnitude - n)
  found.getD ⟨0, 0⟩

end Binary64

namespace Decimal

/-- The decisions about how a decimal is laid out. -/
structure Layout where
  /-- The least exponent of the leading digit that is written with zeros in front. -/
  leastPlain : Int
  /-- The greatest exponent of the leading digit that is written without an exponent. -/
  greatestPlain : Int
  /-- The least number of digits of an exponent. -/
  exponentDigits : Nat

/-- A number is written plainly from `0.00001` up to sixteen digits before the point, always with a
digit behind the point; others get a signed exponent of at least two digits. -/
def Layout.message : Layout := ⟨-5, 15, 2⟩

/-- The digits of an exponent, filled up with zeros. -/
def exponentText (layout : Layout) (e : Nat) : String :=
  let shown := toString e
  String.ofList (List.replicate (layout.exponentDigits - shown.length) '0') ++ shown

/-- The text of a decimal other than zero. -/
def text (layout : Layout) (x : Decimal) : String :=
  -- Zeros at the end belong into the exponent.
  let all := Nat.toDigits 10 x.digits
  let core := (all.reverse.dropWhile (· == '0')).reverse
  let exponent := x.exponent + (all.length - core.length : Nat)
  let lead : Int := exponent + core.length - 1
  let ofChars := String.ofList
  if layout.leastPlain ≤ lead ∧ lead ≤ layout.greatestPlain then
    if 0 ≤ exponent then ofChars (core ++ List.replicate exponent.toNat '0') ++ ".0"
    else if 0 ≤ lead then
      ofChars (core.take (lead.toNat + 1)) ++ "." ++ ofChars (core.drop (lead.toNat + 1))
    else "0." ++ ofChars (List.replicate (-lead - 1).toNat '0' ++ core)
  else
    let tail := core.drop 1
    let mantissa := ofChars (core.take 1) ++ (if tail.isEmpty then "" else "." ++ ofChars tail)
    mantissa ++ "e" ++ (if 0 ≤ lead then "+" else "-") ++ exponentText layout lead.natAbs

end Decimal

/-- The text of a number in a message. -/
def Binary64.text (x : Binary64) : String :=
  if x.significand = 0 then "0.0" else x.shortest.text .message

end Bracketdown
