import CollectionSchema.Numeric.Shortest

/-!
# The text of a decimal

How a decimal is written: positionally while the exponent of its first digit lies in a
range, otherwise with an exponent part. The range is a value, `DecimalLayout`.
-/

namespace CollectionSchema

/-- The text of a natural in decimal digits. -/
def natText (n : Nat) : List Char := Nat.toDigits 10 n

/-- The text of an integer: a minus sign and the digits. -/
def intText (n : Int) : List Char :=
  if n < 0 then '-' :: natText n.natAbs else natText n.natAbs

/-- Which decimals are written positionally: those whose first digit stands for a power of
ten from `lowest` to `highest`. -/
structure DecimalLayout where
  lowest : Int
  highest : Int

namespace DecimalLayout

/-- The positional text, with at least one digit on each side of the point. -/
def positional (d : Decimal) : List Char :=
  let digits := natText d.digits
  if d.leading < 0 then
    '0' :: '.' :: List.replicate (-d.leading - 1).toNat '0' ++ digits
  else
    let whole := (d.leading + 1).toNat
    let padded := digits ++ List.replicate (whole - digits.length) '0'
    let fraction := padded.drop whole
    padded.take whole ++ '.' :: (if fraction.isEmpty then ['0'] else fraction)

/-- The text with an exponent part, whose sign is always written. -/
def scientific (d : Decimal) : List Char :=
  let digits := natText d.digits
  let fraction := digits.drop 1
  digits.take 1 ++ (if fraction.isEmpty then [] else '.' :: fraction) ++
    'e' :: (if d.leading < 0 then '-' else '+') :: natText d.leading.natAbs

/-- The text of the magnitude `d`. -/
def text (layout : DecimalLayout) (d : Decimal) : List Char :=
  if layout.lowest ≤ d.leading ∧ d.leading ≤ layout.highest then positional d else scientific d

end DecimalLayout

/-- The text of a binary64 number: its sign and its shortest decimal. -/
def Binary64.text (layout : DecimalLayout) (x : Binary64) : List Char :=
  let magnitude :=
    if x.isZero then DecimalLayout.positional x.shortest else layout.text x.shortest
  if x.negative then '-' :: magnitude else magnitude

end CollectionSchema
