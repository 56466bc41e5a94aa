import ComponentGen.Number.Binary64
/-!
# JSON numbers

A number of a JSON text is kept as an integer when it is written as one and fits 64 bits, signed
or unsigned; every other number is a double. A double is read from at most the digits that fit
64 bits, scaled by a power of ten in double arithmetic. Numbers beyond the finite doubles have no
value.
-/

namespace ComponentGen.Json

/-- A JSON number. -/
inductive Number where
  | integer (value : Int)
  | real (value : Binary64)
deriving DecidableEq, Repr

/-- A number as it is written: sign, digits before the point, digits after it, exponent. -/
structure NumberText where
  negative : Bool
  whole : List Nat
  fraction : Option (List Nat)
  exponent : Option Int

namespace NumberText

/-- The greatest unsigned 64-bit integer. -/
def digitLimit : Nat := Nat.pow 2 64 - 1

/-- Append digits to a number as long as it fits 64 bits; the digits left over come second. -/
def accumulate (acc : Nat) : List Nat → Nat × List Nat
  | [] => (acc, [])
  | d :: ds => if acc * 10 + d ≤ digitLimit then accumulate (acc * 10 + d) ds else (acc, d :: ds)

/-- The double nearest to a power of ten; exponents up to 308 are used. -/
def powerOfTen (exponent : Nat) : Binary64 :=
  (Binary64.nearest? (Nat.pow 10 exponent) 1).getD (Binary64.zero false)

/-- Multiply a double by a power of ten, one rounded step for every 308 places. Zero stays zero;
an overflow has no value. -/
def scale (x : Binary64) (exponent : Int) : Option Binary64 :=
  if x.isZero then some x
  else if 308 < exponent then none
  else if 0 ≤ exponent then x.mul? (powerOfTen exponent.toNat)
  else if -308 ≤ exponent then x.div? (powerOfTen (-exponent).toNat)
  else (x.div? (powerOfTen 308)).bind fun y => scale y (exponent + 308)
termination_by exponent.natAbs

/-- A double from its digits and decimal exponent, with a sign. -/
def real? (negative : Bool) (digits : Nat) (exponent : Int) : Option Number := do
  let start ← Binary64.nearest? digits 1
  let scaled ← scale start exponent
  return .real { scaled with negative := negative }

/-- The value of a number as written; none for a number beyond the finite doubles. -/
def value? (text : NumberText) : Option Number :=
  let (whole, beyond) := accumulate 0 text.whole
  match text.fraction, text.exponent, beyond with
  | none, none, [] =>
    if !text.negative then some (.integer whole)
    else if 0 < whole ∧ whole ≤ Nat.pow 2 63 then some (.integer (-whole))
    else real? true whole 0
  | fraction, exponent, beyond =>
    let fraction := fraction.getD []
    let (digits, unused) := accumulate whole fraction
    let places : Int := beyond.length - (fraction.length - unused.length : Nat)
    real? text.negative digits (places + exponent.getD 0)

end NumberText

end ComponentGen.Json
