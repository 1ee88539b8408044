import CollectionSchema.Json.Numeral
import CollectionSchema.Text.Digit

/-!
# String literals

A string literal is kept as the characters and escapes between its quotes, up to the
closing quote or to the fault where it breaks off. What it stands for is a second step,
`Literal.decode`: an escape of four hex digits is a UTF-16 unit, and units outside the
surrogate range, or pairs of surrogates, are characters.
-/

namespace CollectionSchema.Json

/-- What follows the opening quote of a string. -/
inductive Literal where
  /-- the closing quote -/
  | close
  /-- the text breaks off inside the string -/
  | fault (f : Fault)
  /-- a character, written as itself or as a short escape -/
  | char (c : Char) (rest : Literal)
  /-- a UTF-16 unit, written as four hex digits -/
  | unit (value : Nat) (rest : Literal)
deriving DecidableEq, Repr, Inhabited

namespace Literal

/-- The value of four hex digits. -/
def hexUnit? (a b c d : Char) : Option Nat := do
  let a ← Text.hexValue? a
  let b ← Text.hexValue? b
  let c ← Text.hexValue? c
  let d ← Text.hexValue? d
  return ((a * 16 + b) * 16 + c) * 16 + d

/-- The character that a short escape stands for. -/
def shortEscape? : Char → Option Char
  | '"' => some '"'
  | '\\' => some '\\'
  | '/' => some '/'
  | 'b' => some '\x08'
  | 'f' => some '\x0c'
  | 'n' => some '\n'
  | 'r' => some '\r'
  | 't' => some '\t'
  | _ => none

/-- The fault of an escape without four hex digits: it is cut off if fewer than four bytes
of UTF-8 are left. -/
def unitFault (text : List Char) : Fault :=
  if (String.ofList text).utf8ByteSize < 4 then .cutOff else .malformed

/-- The literal after an opening quote, and what follows its closing quote. After a fault
nothing follows. -/
def scan : List Char → Literal × List Char
  | [] => (.fault .cutOff, [])
  | '"' :: rest => (.close, rest)
  | '\\' :: 'u' :: a :: b :: c :: d :: rest =>
    match hexUnit? a b c d with
    | some value =>
      let (literal, rest) := scan rest
      (.unit value literal, rest)
    | none => (.fault .malformed, [])
  | '\\' :: 'u' :: rest => (.fault (unitFault rest), [])
  | '\\' :: c :: rest =>
    match shortEscape? c with
    | some escaped =>
      let (literal, rest) := scan rest
      (.char escaped literal, rest)
    | none => (.fault .malformed, [])
  | ['\\'] => (.fault .cutOff, [])
  | c :: rest =>
    if c.toNat < 0x20 then (.fault .malformed, [])
    else
      let (literal, rest) := scan rest
      (.char c literal, rest)

/-- What follows a literal is no longer than the text. -/
theorem length_scan_le (text : List Char) : (scan text).2.length ≤ text.length := by
  fun_induction scan text <;> simp_all <;> omega

theorem scan_quote (rest : List Char) : scan ('"' :: rest) = (.close, rest) := rfl

def isHighSurrogate (value : Nat) : Bool := 0xD800 ≤ value && value < 0xDC00

def isLowSurrogate (value : Nat) : Bool := 0xDC00 ≤ value && value < 0xE000

/-- The character of a pair of surrogates. -/
def pairedChar (high low : Nat) : Char :=
  Char.ofNat (0x10000 + (high - 0xD800) * 0x400 + (low - 0xDC00))

/-- The characters that a literal stands for. A surrogate that is not part of a pair stands
for none; which fault that is depends on whether the text ends there. -/
def decode : Literal → Except Fault (List Char)
  | close => .ok []
  | fault f => .error f
  | char c rest => return c :: (← decode rest)
  | unit value rest =>
    if isLowSurrogate value then .error .malformed
    else if isHighSurrogate value then
      match rest with
      | unit low rest =>
        if isLowSurrogate low then return pairedChar value low :: (← decode rest)
        else .error .malformed
      | fault f => .error f
      | _ => .error .malformed
    else return Char.ofNat value :: (← decode rest)

theorem decode_char (c : Char) (rest : Literal) :
    (char c rest).decode = do return c :: (← rest.decode) :=
  rfl

theorem decode_unit {value : Nat} (hlow : isLowSurrogate value = false)
    (hhigh : isHighSurrogate value = false) (rest : Literal) :
    (unit value rest).decode = do return Char.ofNat value :: (← rest.decode) := by
  cases rest <;> simp [decode, hlow, hhigh]

/-- The string that a literal stands for. -/
def text (literal : Literal) : Except Fault String := return String.ofList (← literal.decode)

/-- Whether a literal is complete, without regard to surrogates. -/
def complete : Literal → Except Fault Unit
  | close => .ok ()
  | fault f => .error f
  | char _ rest => complete rest
  | unit _ rest => complete rest

end Literal

end CollectionSchema.Json
