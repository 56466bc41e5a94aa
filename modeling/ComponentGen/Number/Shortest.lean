import ComponentGen.Number.Binary64
/-!
# Shortest decimal digits

The decimal notation of a double-precision number with the fewest digits that still rounds to
that number, and among those the nearest one. Two may be equally near; which of them is taken is a
choice of the format (`Tie`). `shortest` finds the digits in exact arithmetic; `positional` writes
them without an exponent, `scientific` with one.
-/

namespace ComponentGen

/-- Which of two decimals is taken when a number lies right between them. -/
inductive Tie where
  /-- The greater one. -/
  | up
  /-- The one whose last digit is even. -/
  | toEven
deriving DecidableEq, Repr

/-- A number between `below` and `below + 1`, whose distance from `below` is `rest` out of `den`,
goes up. -/
def Tie.goesUp (tie : Tie) (below rest den : Nat) : Bool :=
  if 2 * rest = den then
    match tie with
    | up => true
    | toEven => below % 2 == 1
  else den < 2 * rest

namespace Binary64

/-- The numbers that round to a positive number fill the stretch from `lower` to `upper`, both
over one denominator; the ends belong to it when `closed` is set. -/
structure Stretch where
  lower : Nat
  value : Nat
  upper : Nat
  den : Nat
  closed : Bool

/-- The stretch of numbers that round to a number that is not zero. Below a power of two the
neighbour is half as far away as above it. -/
def stretch (x : Binary64) : Stretch :=
  let atPower := x.significand = Nat.pow 2 52 ∧ minExponent < x.exponent
  let quarters (k : Nat) : Nat :=
    if x.exponent < 0 then k else k * Nat.pow 2 x.exponent.toNat
  { lower := quarters (4 * x.significand - if atPower then 1 else 2)
    value := quarters (4 * x.significand)
    upper := quarters (4 * x.significand + 2)
    den := if x.exponent < 0 then 4 * Nat.pow 2 (-x.exponent).toNat else 4
    closed := x.significand % 2 == 0 }

/-- `digits * 10 ^ exponent` lies in the stretch. -/
def Stretch.holds (s : Stretch) (digits : Nat) (exponent : Int) : Bool :=
  let num := if exponent < 0 then digits * s.den else digits * Nat.pow 10 exponent.toNat * s.den
  let unit := if exponent < 0 then Nat.pow 10 (-exponent).toNat else 1
  if s.closed then s.lower * unit ≤ num && num ≤ s.upper * unit
  else s.lower * unit < num && num < s.upper * unit

/-- The number of decimal digits in front of the point of `num / den`, zero or negative for a
ratio below one: the least `p` with `num / den < 10 ^ p`. -/
def decimalPlaces (num den : Nat) : Int :=
  let guess : Int := ((toString num).length : Int) - (toString den).length
  let reached :=
    if guess < 0 then den ≤ num * Nat.pow 10 (-guess).toNat
    else den * Nat.pow 10 guess.toNat ≤ num
  if reached then guess + 1 else guess

/-- The digits at the decimal exponent `exponent` that stand for the number, if its lower or its
upper neighbour on that decimal grid lies in the stretch. -/
def digitsAt (tie : Tie) (s : Stretch) (exponent : Int) : Option Nat :=
  let num := if exponent < 0 then s.value * Nat.pow 10 (-exponent).toNat else s.value
  let den := if exponent < 0 then s.den else s.den * Nat.pow 10 exponent.toNat
  let below := num / den
  let rest := num % den
  match s.holds below exponent, s.holds (below + 1) exponent with
  | true, true => some (if tie.goesUp below rest den then below + 1 else below)
  | true, false => some below
  | false, true => some (below + 1)
  | false, false => none

/-- The first grid with a hit, trying `count` grids from the decimal exponent `exponent`
downward. Seventeen grids are always enough. -/
def firstGrid (tie : Tie) (s : Stretch) : Nat → Int → Nat × Int
  | 0, exponent => (s.value * Nat.pow 10 (-exponent).toNat / s.den, exponent)
  | count + 1, exponent =>
    match digitsAt tie s exponent with
    | some digits => (digits, exponent)
    | none => firstGrid tie s count (exponent - 1)

/-- Digits and decimal exponent of the shortest notation of the absolute value of a number that
is not zero. -/
def shortest (x : Binary64) (tie : Tie) : Nat × Int :=
  let s := x.stretch
  firstGrid tie s 17 (decimalPlaces s.value s.den - 1)

end Binary64

/-- The digits of a positive number without the zeros at its end, and the exponent of the last
digit that is left, when the number counts units of `10 ^ exponent`. -/
def significantDigits (digits : Nat) (exponent : Int) : List Char × Int :=
  let written := (toString digits).toList
  let significant := (written.reverse.dropWhile (· == '0')).reverse
  (significant, exponent + ((written.length - significant.length : Nat) : Int))

/-- Write `digits * 10 ^ exponent` without an exponent: zeros fill up the places before the
point, or between the point and the digits. -/
def positional (digits : Nat) (exponent : Int) : String :=
  let (significant, shift) := significantDigits digits exponent
  if 0 ≤ shift then
    String.ofList (significant ++ List.replicate shift.toNat '0')
  else
    let places := (-shift).toNat
    if places < significant.length then
      let whole := significant.length - places
      String.ofList (significant.take whole ++ '.' :: significant.drop whole)
    else
      String.ofList ('0' :: '.' :: List.replicate (places - significant.length) '0' ++ significant)

/-- Write `digits * 10 ^ exponent` as one digit, the other digits behind a point, and an exponent
with its sign. -/
def scientific (digits : Nat) (exponent : Int) : String :=
  let (significant, shift) := significantDigits digits exponent
  let mantissa :=
    match significant with
    | first :: second :: rest => first :: '.' :: second :: rest
    | short => short
  let power := shift + significant.length - 1
  String.ofList mantissa ++ (if power < 0 then "e-" else "e+") ++ toString power.natAbs

namespace Binary64

/-- The notation of a number that shows it to be a double: with a fraction, if only a zero, or
with an exponent when the point would stand more than 16 places behind the first digit or 5 places
in front of it. A tie goes to the even digit. -/
def decimalText (x : Binary64) : String :=
  let magnitude :=
    if x.isZero then "0.0"
    else
      let (digits, exponent) := x.shortest .toEven
      let (significant, shift) := significantDigits digits exponent
      let point := shift + significant.length
      if point ≤ -5 ∨ 16 < point then scientific digits exponent
      else if 0 ≤ shift then positional digits exponent ++ ".0"
      else positional digits exponent
  if x.negative then "-" ++ magnitude else magnitude

end Binary64

end ComponentGen
