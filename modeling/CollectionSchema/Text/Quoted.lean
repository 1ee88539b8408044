import CollectionSchema.Text.Digit
import CollectionSchema.Text.Printable

/-!
# Quoted text

A text between quotes, where quotes, backslashes, the common controls and every character
that does not show by itself are escaped, the last as a code point in hex digits between
braces. `decode` is the reader: it takes a quoted text off the front of a text.
-/

namespace CollectionSchema.Text

/-- The letters of Hangul that stand for a missing one, and so show nothing. -/
def isFiller (c : Char) : Bool := ['\u115f', '\u1160', '\u3164', '\uffa0'].contains c

/-- The halfwidth sound marks of Katakana. They extend a grapheme, but take up room of their
own. -/
def isSoundMark (c : Char) : Bool := c == '\uff9e' || c == '\uff9f'

/-- Whether a character shows by itself in a quoted text. -/
def showsItself (c : Char) : Bool :=
  isPrintable c && !isFiller c && (!isGraphemeExtend c || isSoundMark c)

/-- The hex digits of a code point, without zeros in front. -/
def hexDigits (n : Nat) : List Char := Nat.toDigits 16 n

/-- A character inside a quoted text. -/
def escape (c : Char) : List Char :=
  match c with
  | '\x00' => ['\\', '0']
  | '\t' => ['\\', 't']
  | '\r' => ['\\', 'r']
  | '\n' => ['\\', 'n']
  | '"' => ['\\', '"']
  | '\\' => ['\\', '\\']
  | c => if showsItself c then [c] else ['\\', 'u', '{'] ++ hexDigits c.toNat ++ ['}']

/-- The text in quotes. -/
def quoted (text : List Char) : List Char := '"' :: text.flatMap escape ++ ['"']

/-- The character that an escape of one letter stands for. -/
def letterEscape? : Char → Option Char
  | '0' => some '\x00'
  | 't' => some '\t'
  | 'r' => some '\r'
  | 'n' => some '\n'
  | '"' => some '"'
  | '\\' => some '\\'
  | '\'' => some '\''
  | _ => none

/-- Reads the rest of a code point in hex digits, up to its closing brace: the code point and
what follows. -/
def readCodePoint : Nat → List Char → Option (Nat × List Char)
  | _, [] => none
  | n, '}' :: rest => some (n, rest)
  | n, c :: rest =>
    match hexValue? c with
    | some digit => readCodePoint (n * 16 + digit) rest
    | none => none

theorem length_readCodePoint_lt {n m : Nat} {text rest : List Char}
    (h : readCodePoint n text = some (m, rest)) : rest.length < text.length := by
  fun_induction readCodePoint n text <;> grind

/-- Reads a quoted text after its opening quote: the text, and what follows the first quote
that is not escaped. -/
def readQuoted : List Char → Option (List Char × List Char)
  | [] => none
  | '"' :: rest => some ([], rest)
  | '\\' :: 'u' :: '{' :: rest =>
    match _h : readCodePoint 0 rest with
    | some (n, rest) =>
      if n.isValidChar then do
        let (text, rest) ← readQuoted rest
        some (Char.ofNat n :: text, rest)
      else none
    | none => none
  | '\\' :: c :: rest =>
    match letterEscape? c with
    | some c => do
      let (text, rest) ← readQuoted rest
      some (c :: text, rest)
    | none => none
  | c :: rest => do
    let (text, rest) ← readQuoted rest
    some (c :: text, rest)
termination_by text => text.length
decreasing_by
  · have := length_readCodePoint_lt _h
    simp only [List.length_cons]
    omega
  · simp only [List.length_cons]
    omega
  · simp only [List.length_cons]
    omega

end CollectionSchema.Text
