import CollectionSchema.Numeric.Binary64

/-!
# Shortest decimals

The shortest decimal that reads back as a given binary64 number. The reals that round to
the number form an interval; for one, two, … digits the number's two neighbours on that
decimal grid are tested against it, and the first grid with a hit gives the digits: the
nearer of two hits, and of two equally near ones the even one.
-/

namespace CollectionSchema

/-- The positive number `digits * 10 ^ exponent`, where `digits` has `count` digits. -/
structure Decimal where
  digits : Nat
  count : Nat
  exponent : Int
deriving Repr, DecidableEq

namespace Decimal

/-- The exponent of the first digit: `digits` read as `d.ddd`. -/
def leading (d : Decimal) : Int := d.exponent + d.count - 1

/-- The decimal without the zeros at the end of its digits. -/
def strip : Decimal → Decimal
  | ⟨digits, count + 2, exponent⟩ =>
    if digits % 10 = 0 then strip ⟨digits / 10, count + 1, exponent + 1⟩
    else ⟨digits, count + 2, exponent⟩
  | d => d
termination_by d => d.count

/-- Whether `num / den` is at least `10 ^ e`. -/
def reaches (num den : Nat) (e : Int) : Bool :=
  if 0 ≤ e then decide (den * Nat.pow 10 e.toNat ≤ num)
  else decide (den ≤ num * Nat.pow 10 (-e).toNat)

/-- The greatest `e ≤ start` with `10 ^ e ≤ num / den`, looking at most `fuel` steps down. -/
def floorLog (num den : Nat) : Nat → Int → Int
  | 0, start => start
  | fuel + 1, start => if reaches num den start then start else floorLog num den fuel (start - 1)

end Decimal

namespace Binary64

/-- The ends of the interval of reals that round to `x`, in quarters of a unit. Below a
power of two the numbers lie twice as close. -/
def interval (x : Binary64) : Nat × Nat :=
  let gap := Nat.pow 2 x.scale
  let below := if x.mantissa = leastNormal ∧ 0 < x.scale then gap else 2 * gap
  (4 * x.units - below, 4 * x.units + 2 * gap)

/-- Whether `candidate / den` quarters of a unit round to `x`: the ends belong to the
interval iff the mantissa is even. -/
def absorbs (x : Binary64) (candidate den : Nat) : Bool :=
  let (low, high) := x.interval
  if x.mantissa % 2 = 0 then decide (low * den ≤ candidate ∧ candidate ≤ high * den)
  else decide (low * den < candidate ∧ candidate < high * den)

/-- The best point of the grid of multiples of `10 ^ e` that reads back as `x`, in
multiples. -/
def onGrid? (x : Binary64) (e : Int) : Option Nat :=
  -- In quarters of a unit the step of the grid is `step / den`.
  let step := if 0 ≤ e then 4 * one * Nat.pow 10 e.toNat else 4 * one
  let den := if 0 ≤ e then 1 else Nat.pow 10 (-e).toNat
  let value := 4 * x.units * den
  let lower := value / step
  let upper := lower + 1
  let downHit := x.absorbs (lower * step) den
  let upHit := x.absorbs (upper * step) den
  let down := value - lower * step
  let up := upper * step - value
  if downHit && (!upHit || down < up || (down == up && lower % 2 == 0)) then some lower
  else if upHit then some upper
  else none

/-- Searches the grids of `count`, `count + 1`, … digits below the leading exponent. -/
def searchGrids (x : Binary64) (leading : Int) : Nat → Nat → Decimal
  | 0, count => ⟨x.mantissa, count, 0⟩
  | fuel + 1, count =>
    let exponent := leading - count + 1
    match x.onGrid? exponent with
    | some digits =>
      -- A carry to the next power of ten leaves one digit more, a zero.
      if digits = Nat.pow 10 count then Decimal.strip ⟨digits, count + 1, exponent⟩
      else Decimal.strip ⟨digits, count, exponent⟩
    | none => searchGrids x leading fuel (count + 1)

/-- The shortest decimal that reads back as the magnitude of `x`; seventeen digits always
do. For zero it is the digit `0`. -/
def shortest (x : Binary64) : Decimal :=
  if x.isZero then ⟨0, 1, 0⟩
  else
    let leading := Decimal.floorLog x.units one 640 309
    searchGrids x leading 17 1

end Binary64

end CollectionSchema
