import CollectionSchema.Json.Basic

/-!
# Number literals

A number literal as its parts, and the number that it stands for. An integer literal that
fits 64 bits keeps its form. Every other literal is a binary64 number: the first digits, as
many as fit an unsigned 64-bit integer, are rounded to binary64 and then scaled by a power
of ten, so the result can be a little off the nearest one. A literal past the end of the
format has no value.
-/

namespace CollectionSchema.Json

/-- Where a text stops being JSON: it ends too early, or it goes on in a way no JSON text
does. -/
inductive Fault where
  | cutOff
  | malformed
deriving DecidableEq, Repr, Inhabited

/-- The exponent part of a number literal. -/
structure Exponent where
  negative : Bool
  digits : List Char
deriving DecidableEq, Repr

/-- A number literal: `fraction` is empty iff there is no decimal point. -/
structure Numeral where
  negative : Bool
  whole : List Char
  fraction : List Char
  exponent : Option Exponent
deriving DecidableEq, Repr

namespace Numeral

/-- The largest unsigned and the least signed 64-bit integer. -/
def maxUnsigned : Nat := 18446744073709551615

def minSigned : Int := -9223372036854775808

def digitValue (c : Char) : Nat := c.toNat - '0'.toNat

/-- Appends digits to `start` while the result fits an unsigned 64-bit integer: the result,
and the digits left over. -/
def collect : Nat → List Char → Nat × List Char
  | start, [] => (start, [])
  | start, c :: rest =>
    let next := start * 10 + digitValue c
    if next ≤ maxUnsigned then collect next rest else (start, c :: rest)

/-- The value of a digit sequence. -/
def natValue (digits : List Char) : Nat := digits.foldl (fun n c => n * 10 + digitValue c) 0

/-- The power of ten in the exponent part. -/
def Exponent.value (e : Exponent) : Int :=
  if e.negative then -(natValue e.digits : Int) else natValue e.digits

/-- The first digits of a literal, as many as fit 64 bits, and the power of ten that they
are scaled by. Digits left over in the whole part count as tens; those of the fraction are
dropped. -/
def significand (n : Numeral) : Nat × Int :=
  let (whole, left) := collect 0 n.whole
  let (digits, dropped) := collect whole n.fraction
  let exponent := (n.exponent.map Exponent.value).getD 0
  (digits, left.length - (n.fraction.length - dropped.length : Nat) + exponent)

/-- The greatest power of ten that is taken in one step. -/
def maxPower : Nat := 308

/-- `x` divided by `10 ^ k`, in steps of `10 ^ 308` with a rounding after each. -/
def scaleDown? (x : Binary64) (k : Nat) : Option Binary64 :=
  if k ≤ maxPower then do x.div? (← Binary64.tenPow? k)
  else if x.isZero then some x
  else do
    let next ← x.div? (← Binary64.tenPow? maxPower)
    scaleDown? next (k - maxPower)
termination_by k
decreasing_by simp only [maxPower] at *; omega

/-- `digits * 10 ^ exponent`, rounded after each step; nothing when out of range. -/
def scale? (digits : Nat) (exponent : Int) : Option Binary64 := do
  let x ← Binary64.ofNat? digits
  if exponent < 0 then scaleDown? x exponent.natAbs
  else if exponent.natAbs ≤ maxPower then x.mul? (← Binary64.tenPow? exponent.natAbs)
  else if x.isZero then some x
  else none

/-- Whether the literal has neither a point nor an exponent. -/
def isWhole (n : Numeral) : Bool := n.fraction.isEmpty && n.exponent.isNone

/-- The integer that a literal keeps: it has neither point nor exponent and fits 64 bits.
Minus zero is no integer. -/
def integer? (n : Numeral) : Option Int :=
  let value := natValue n.whole
  if !n.isWhole then none
  else if n.negative then
    if value ≠ 0 ∧ minSigned ≤ -(value : Int) then some (-(value : Int)) else none
  else if value ≤ maxUnsigned then some value else none

/-- The number that a literal stands for. -/
def number? (n : Numeral) : Option JsonNumber :=
  match n.integer? with
  | some value => some (.integer value)
  | none =>
    let (digits, exponent) := n.significand
    (scale? digits exponent).map fun x => .real (x.withSign n.negative)

/-- The fault where a digit is missing in front of `rest`. -/
def missingDigit (rest : List Char) : Fault := if rest.isEmpty then .cutOff else .malformed

/-- One digit or more at the start of a text, and what follows. -/
def scanDigits (text : List Char) : Except Fault (List Char × List Char) :=
  if (text.takeWhile Char.isDigit).isEmpty then .error (missingDigit text)
  else .ok (text.takeWhile Char.isDigit, text.dropWhile Char.isDigit)

/-- The sign of an exponent, plus when it is not written, and what follows. -/
def scanSign : List Char → Bool × List Char
  | '+' :: rest => (false, rest)
  | '-' :: rest => (true, rest)
  | text => (false, text)

/-- The exponent part at the start of a text, if there is one, and what follows. -/
def scanExponent : List Char → Except Fault (Option Exponent × List Char)
  | [] => .ok (none, [])
  | c :: text =>
    if c = 'e' ∨ c = 'E' then do
      let (digits, rest) ← scanDigits (scanSign text).2
      return (some ⟨(scanSign text).1, digits⟩, rest)
    else .ok (none, c :: text)

/-- The digits after a decimal point at the start of a text, none if there is no point, and
what follows. -/
def scanFraction : List Char → Except Fault (List Char × List Char)
  | '.' :: text => scanDigits text
  | text => .ok ([], text)

/-- The whole part at the start of a text: a zero alone, or digits that do not start with
one. -/
def scanWhole : List Char → Except Fault (List Char × List Char)
  | ['0'] => .ok (['0'], [])
  | '0' :: c :: rest => if c.isDigit then .error .malformed else .ok (['0'], c :: rest)
  | text => scanDigits text

/-- The literal at the start of `text`, after its sign. -/
def scan (negative : Bool) (text : List Char) : Except Fault (Numeral × List Char) := do
  let (whole, text) ← scanWhole text
  let (fraction, text) ← scanFraction text
  let (exponent, text) ← scanExponent text
  return (⟨negative, whole, fraction, exponent⟩, text)

theorem length_scanDigits_lt {text digits rest : List Char}
    (h : scanDigits text = .ok (digits, rest)) : rest.length < text.length := by
  unfold scanDigits at h
  split at h
  · cases h
  · rename_i hd
    have span : (text.takeWhile Char.isDigit).length + (text.dropWhile Char.isDigit).length =
        text.length := by
      rw [← List.length_append, List.takeWhile_append_dropWhile]
    have pos : 0 < (text.takeWhile Char.isDigit).length :=
      List.length_pos_iff.2 fun hnil => hd (by simp [hnil])
    obtain ⟨rfl, rfl⟩ := Prod.mk.inj (Except.ok.inj h)
    omega

theorem length_scanSign_le (text : List Char) : (scanSign text).2.length ≤ text.length := by
  unfold scanSign
  split <;> simp

theorem length_scanExponent_le {text rest : List Char} {exponent : Option Exponent}
    (h : scanExponent text = .ok (exponent, rest)) : rest.length ≤ text.length := by
  unfold scanExponent at h
  split at h
  · cases h; simp
  · rename_i c text
    split at h
    · cases hd : scanDigits (scanSign text).2 with
      | error f => simp [hd, bind, Except.bind] at h
      | ok found =>
        have := @length_scanDigits_lt _ found.1 found.2 hd
        have := length_scanSign_le text
        simp only [hd, bind, Except.bind, pure, Except.pure] at h
        cases h
        simp only [List.length_cons]
        omega
    · cases h; simp

theorem length_scanFraction_le {text digits rest : List Char}
    (h : scanFraction text = .ok (digits, rest)) : rest.length ≤ text.length := by
  unfold scanFraction at h
  split at h
  · have := length_scanDigits_lt h
    simp only [List.length_cons]
    omega
  · cases h; simp

theorem length_scanWhole_lt {text digits rest : List Char}
    (h : scanWhole text = .ok (digits, rest)) : rest.length < text.length := by
  unfold scanWhole at h
  split at h
  · cases h; simp
  · split at h
    · cases h
    · cases h; simp
  · exact length_scanDigits_lt h

/-- A scan consumes at least a digit. -/
theorem length_scan_lt {negative : Bool} {text rest : List Char} {n : Numeral}
    (h : scan negative text = .ok (n, rest)) : rest.length < text.length := by
  simp only [scan, bind, Except.bind] at h
  split at h
  · cases h
  · rename_i whole hw
    split at h
    · cases h
    · rename_i fraction hf
      split at h
      · cases h
      · rename_i exponent he
        have h1 := @length_scanWhole_lt _ whole.1 whole.2 hw
        have h2 := @length_scanFraction_le _ fraction.1 fraction.2 hf
        have h3 := @length_scanExponent_le _ exponent.2 exponent.1 he
        cases h
        omega

end Numeral

end CollectionSchema.Json
