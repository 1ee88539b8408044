/-!
# Finite binary64 numbers

A finite binary64 number as a sign and a magnitude `mantissa * 2 ^ scale` counted in units
of `2 ^ (-1074)`, the smallest positive number of the format. All arithmetic goes through
one function, `Binary64.ofRatio?`, which rounds an exact quotient to the nearest number of
the format and gives nothing when that is out of range.
-/

namespace CollectionSchema

/-- The quotient of two naturals rounded to the nearest natural, a half to the even one. -/
def roundHalfEven (num den : Nat) : Nat :=
  let quotient := num / den
  let twice := 2 * (num % den)
  if twice < den then quotient
  else if den < twice then quotient + 1
  else quotient + quotient % 2

/-- A finite binary64 number: `mantissa * 2 ^ scale` units, negated when `negative`. The
two zeros differ in their sign only. -/
structure Binary64 where
  negative : Bool
  mantissa : Nat
  scale : Nat
deriving Repr, Inhabited

namespace Binary64

/-- How many units of `2 ^ (-1074)` make one. -/
def one : Nat := Nat.pow 2 1074

/-- The least mantissa of a number with a positive scale, `2 ^ 52`; all are less than twice
that. -/
def leastNormal : Nat := 4503599627370496

/-- The largest scale: `2 ^ 53 * 2 ^ 2046` units are past the end of the format. -/
def maxScale : Nat := 2045

/-- The magnitude in units of `2 ^ (-1074)`. -/
def units (x : Binary64) : Nat := x.mantissa * Nat.pow 2 x.scale

/-- The value in units of `2 ^ (-1074)`. -/
def signedUnits (x : Binary64) : Int := if x.negative then -(x.units : Int) else x.units

def isZero (x : Binary64) : Bool := x.mantissa == 0

def zero : Binary64 := ⟨false, 0, 0⟩

/-- The same magnitude with the sign `negative`. -/
def withSign (negative : Bool) (x : Binary64) : Binary64 := { x with negative }

/-- Strictly less, by value: the two zeros are equal. -/
def lt (x y : Binary64) : Bool := decide (x.signedUnits < y.signedUnits)

/-- Numbers are the same when their values are: the two zeros are. -/
instance : BEq Binary64 := ⟨fun x y => x.signedUnits == y.signedUnits⟩

/-- The number nearest to `num / den` units, a tie going to the even mantissa; nothing when
it is out of range. -/
def ofUnits? (num den : Nat) : Option Binary64 :=
  let scale := (num / den).log2 - 52
  let mantissa := roundHalfEven num (den * Nat.pow 2 scale)
  let rounded : Binary64 :=
    if mantissa < 2 * leastNormal then ⟨false, mantissa, scale⟩
    else ⟨false, leastNormal, scale + 1⟩
  if rounded.scale ≤ maxScale then some rounded else none

/-- The number nearest to `num / den`. -/
def ofRatio? (num den : Nat) : Option Binary64 := ofUnits? (num * one) den

/-- The number nearest to a natural below `2 ^ 1024`. -/
def ofNat? (n : Nat) : Option Binary64 := ofRatio? n 1

/-- The rounded product of two magnitudes. -/
def mul? (x y : Binary64) : Option Binary64 := ofUnits? (x.units * y.units) one

/-- The rounded quotient of two magnitudes. -/
def div? (x y : Binary64) : Option Binary64 := ofUnits? (x.units * one) y.units

/-- The number nearest to `10 ^ k`. -/
def tenPow? (k : Nat) : Option Binary64 := ofNat? (Nat.pow 10 k)

/-- The number nearest to `digits * 10 ^ exponent`. An exponent far out of range is settled
by two bounds on the number of digits, before any power is taken. -/
def ofDecimal? (digits : Nat) (exponent : Int) : Option Binary64 :=
  if digits = 0 then some zero
  else
    if 400 < exponent + (digits.log2 / 4 : Nat) then none
    else if exponent + (digits.log2 / 3 : Nat) < -400 then some zero
    else if 0 ≤ exponent then ofRatio? (digits * Nat.pow 10 exponent.toNat) 1
    else ofRatio? digits (Nat.pow 10 (-exponent).toNat)

example : (ofNat? (2 ^ 53 + 1)).map units = some (2 ^ 53 * one) := by decide +kernel
example : ofNat? (2 ^ 1024) = none := by decide +kernel
example : (ofDecimal? 5 (-324)).map units = some 1 := by decide +kernel

end Binary64

end CollectionSchema
