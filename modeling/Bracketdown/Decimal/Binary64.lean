/-!
# Double precision numbers, exactly

`Binary64` is a finite number of the double precision format without its sign: the value is
`significand · 2 ^ exponent`. `ofRatio` rounds a quotient of natural numbers to the nearest such
number, a tie to the even significand, and has no result where the quotient is too large for the
format. Products and quotients of two numbers are formed exactly and then rounded once.
-/

namespace Bracketdown

/-- A finite double precision number without its sign. -/
structure Binary64 where
  significand : Nat
  exponent : Int
  deriving Repr, DecidableEq

namespace Binary64

/-- The number zero. -/
def zero : Binary64 := ⟨0, -1074⟩

/-- A power of two. -/
def twoTo (n : Nat) : Nat := Nat.pow 2 n

/-- A power of ten. -/
def tenTo (n : Nat) : Nat := Nat.pow 10 n

/-- A quotient rounded to the nearest integer, a tie to the even one. -/
def roundQuotient (num den : Nat) : Nat :=
  let q := num / den
  let twice := 2 * (num % den)
  if twice < den then q
  else if den < twice then q + 1
  else if q % 2 = 0 then q else q + 1

/-- The quotient `num / den · 2 ^ -e`, rounded. -/
def scaled (num den : Nat) (e : Int) : Nat :=
  if 0 ≤ e then roundQuotient num (den * twoTo e.toNat)
  else roundQuotient (num * twoTo (-e).toNat) den

/-- Whether `m · 2 ^ e` is too large for the format. -/
def overflows (m : Nat) (e : Int) : Bool := twoTo 1024 ≤ m * twoTo e.toNat

/-- The number nearest to a quotient; none where that is past the largest number. -/
def ofRatio (num den : Nat) : Option Binary64 :=
  if num = 0 then some zero
  else
    let guess : Int := max ((Nat.log2 num : Int) - Nat.log2 den - 53) (-1074)
    -- The guess leaves 54 bits at most; with so many the next exponent is the right one.
    let e := if scaled num den guess < twoTo 53 then guess else guess + 1
    let m := scaled num den e
    if overflows m e then none
    else if m = twoTo 53 then some ⟨twoTo 52, e + 1⟩ else some ⟨m, e⟩

/-- The number nearest to a natural number. -/
def ofNat (n : Nat) : Option Binary64 := ofRatio n 1

/-- The rounded product of two numbers. -/
def mul (x y : Binary64) : Option Binary64 :=
  let e := x.exponent + y.exponent
  let m := x.significand * y.significand
  if 0 ≤ e then ofRatio (m * twoTo e.toNat) 1 else ofRatio m (twoTo (-e).toNat)

/-- The rounded quotient of two numbers. -/
def div (x y : Binary64) : Option Binary64 :=
  let e := x.exponent - y.exponent
  if 0 ≤ e then ofRatio (x.significand * twoTo e.toNat) y.significand
  else ofRatio x.significand (y.significand * twoTo (-e).toNat)

/-- The number nearest to `significand · 10 ^ exponent` as found with rounded powers of ten: the
significand is rounded first and multiplied or divided by the rounded power, and an exponent below
-308 is worked off in steps of 308. None where a result is past the largest number. -/
def ofDecimal (significand : Nat) (exponent : Int) : Option Binary64 := do
  let start ← ofNat significand
  if 308 < exponent then if start.significand = 0 then some start else none
  else if 0 ≤ exponent then start.mul (← ofNat (tenTo exponent.toNat))
  else go (exponent.natAbs / 308) start exponent.natAbs
where
  /-- Divides by the power of ten, at most `fuel` steps of 308 at a time. -/
  go : Nat → Binary64 → Nat → Option Binary64
    | 0, x, n => do x.div (← ofNat (tenTo n))
    | fuel + 1, x, n =>
      if n ≤ 308 then do x.div (← ofNat (tenTo n))
      else if x.significand = 0 then some x
      else do go fuel (← x.div (← ofNat (tenTo 308))) (n - 308)

end Binary64

end Bracketdown
