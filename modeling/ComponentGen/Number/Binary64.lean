/-!
# Double-precision numbers

Finite double-precision binary numbers as exact integers: a sign, a significand below `2 ^ 53`
and a binary exponent. Rounding goes to the nearest such number, a tie to the even significand.
Products and quotients are computed exactly and rounded once, so nothing here depends on machine
arithmetic.
-/

namespace ComponentGen

/-- A finite double-precision number, `±significand * 2 ^ exponent`. In the form that rounding
produces, the significand is below `2 ^ 53`, the exponent is at least `-1074`, and a significand
below `2 ^ 52` occurs with the exponent `-1074` only. -/
structure Binary64 where
  negative : Bool
  significand : Nat
  exponent : Int
deriving DecidableEq, Repr

namespace Binary64

/-- The least binary exponent. -/
def minExponent : Int := -1074

/-- The greatest binary exponent. -/
def maxExponent : Int := 971

/-- Zero with a sign. -/
def zero (negative : Bool) : Binary64 := ⟨negative, 0, minExponent⟩

/-- The number is zero, with either sign. -/
def isZero (x : Binary64) : Bool :=
  x.significand == 0

/-- `num / den` divided by `2 ^ exponent`, as a numerator and a denominator. -/
def scaleDown (num den : Nat) (exponent : Int) : Nat × Nat :=
  if exponent < 0 then (num * Nat.pow 2 (-exponent).toNat, den)
  else (num, den * Nat.pow 2 exponent.toNat)

/-- The integer nearest to `num / den`; of two, the even one. -/
def roundHalfEven (num den : Nat) : Nat :=
  let quotient := num / den
  let rest := num % den
  if 2 * rest < den then quotient
  else if 2 * rest = den then quotient + quotient % 2
  else quotient + 1

/-- The binary exponent at which the positive ratio `num / den` has a significand of 53 bits, or
the least exponent when the ratio is too small for that. -/
def exponentOf (num den : Nat) : Int :=
  let guess : Int := (Nat.log2 num : Int) - (Nat.log2 den : Int) - 53
  let (n, d) := scaleDown num den guess
  max minExponent (if d * Nat.pow 2 53 ≤ n then guess + 1 else guess)

/-- The number nearest to the ratio `num / den`, or nothing when that is beyond all finite
ones. -/
def nearest? (num den : Nat) : Option Binary64 :=
  if num = 0 then some (zero false)
  else
    let exponent := exponentOf num den
    let (n, d) := scaleDown num den exponent
    let significand := roundHalfEven n d
    let rounded : Binary64 :=
      if significand = Nat.pow 2 53 then ⟨false, Nat.pow 2 52, exponent + 1⟩
      else ⟨false, significand, exponent⟩
    if rounded.exponent ≤ maxExponent then some rounded else none

/-- The absolute value as a ratio of two integers. -/
def ratio (x : Binary64) : Nat × Nat :=
  if x.exponent < 0 then (x.significand, Nat.pow 2 (-x.exponent).toNat)
  else (x.significand * Nat.pow 2 x.exponent.toNat, 1)

/-- The rounded product of the absolute values. -/
def mul? (x y : Binary64) : Option Binary64 :=
  let (a, b) := x.ratio
  let (c, d) := y.ratio
  nearest? (a * c) (b * d)

/-- The rounded quotient of the absolute values; the divisor is not zero. -/
def div? (x y : Binary64) : Option Binary64 :=
  let (a, b) := x.ratio
  let (c, d) := y.ratio
  nearest? (a * d) (b * c)

/-- The number has no fractional part. -/
def isIntegral (x : Binary64) : Bool :=
  let (num, den) := x.ratio
  num % den == 0

/-- The integral part of the absolute value. -/
def integralPart (x : Binary64) : Nat :=
  let (num, den) := x.ratio
  num / den

end Binary64

end ComponentGen
