import CollectionSchema.Toml.Value

/-!
# The grammar of strings, numbers and keys

The lexical elements of TOML text: blanks, comments, strings in four forms, numbers, and
keys. Each is a scan.
-/

namespace CollectionSchema.Toml.Grammar

open Scan

/-! ## Blanks and comments -/

def isBlank (c : Char) : Bool := c == ' ' || c == '\t'

/-- Blanks, on one line. -/
def blanks : Scan Unit := discard (run isBlank)

/-- The end of a line: a line feed, perhaps after a carriage return. -/
def newline : Scan Unit := char '\n' <|> (char '\r' *> char '\n')

/-- A character that may stand in a comment: any but control characters; a tab is none. -/
def isCommentChar (c : Char) : Bool := c == '\t' || (0x20 ≤ c.toNat && c.toNat != 0x7F)

/-- A comment, up to the end of its line. -/
def comment : Scan Unit := char '#' *> discard (run isCommentChar)

/-- Blanks, comments and ends of lines. -/
def gap : Scan Unit :=
  discard (many (discard (run1 isBlank) <|> newline <|> comment))

/-- The rest of a line: blanks, a comment, and the end of the line or the text. -/
def lineEnd : Scan Unit := do
  blanks
  discard (optional comment)
  if ← atEnd then return () else newline

/-! ## Strings -/

/-- The character with the code of `count` hex digits. -/
def codeEscape (count : Nat) : Scan Char := do
  let digits ← (List.replicate count ()).mapM fun _ => charIf Text.isHexDigit
  let code := Text.digitsValue 16 digits
  if code.isValidChar then return Char.ofNat code else failure

/-- The character that an escape without digits stands for. -/
def shortEscape? : Char → Option Char
  | 'b' => some '\x08'
  | 't' => some '\t'
  | 'n' => some '\n'
  | 'f' => some '\x0c'
  | 'r' => some '\r'
  | '"' => some '"'
  | '\\' => some '\\'
  | _ => none

/-- An escape: a backslash and what follows. -/
def escape : Scan Char := do
  char '\\'
  let c ← charIf fun _ => true
  match c with
  | 'u' => codeEscape 4
  | 'U' => codeEscape 8
  | c => (shortEscape? c : Option Char)

/-- A character that stands for itself between `quote`s. -/
def isPlain (quote c : Char) : Bool := isCommentChar c && c != quote

/-- A character that stands for itself in a string with escapes. -/
def isBasic (c : Char) : Bool := isPlain '"' c && c != '\\'

/-- A string on one line, with escapes. -/
def basicString : Scan String := do
  char '"'
  let pieces ← many (run1 isBasic <|> List.singleton <$> escape)
  char '"'
  return String.ofList pieces.flatten

/-- A string on one line, without escapes. -/
def literalString : Scan String := do
  char '\''
  let text ← run (isPlain '\'')
  char '\''
  return String.ofList text

/-- A backslash at the end of a line: it joins the line to the next one that is not blank,
without the blanks in front of that. -/
def lineJoin : Scan (List Char) := do
  char '\\'
  blanks
  newline
  discard (many (discard (run1 isBlank) <|> newline))
  return []

/-- One or two quotes inside a string with three quotes around it. -/
def innerQuotes (quote : Char) : Scan (List Char) := do
  let quotes ← run (· == quote)
  if quotes.length = 1 ∨ quotes.length = 2 then return quotes else failure

/-- The end of a string with three quotes around it. Up to two quotes in front of the last
three belong to the string. -/
def closingQuotes (quote : Char) : Scan (List Char) := fun text =>
  let count := min (text.takeWhile (· == quote)).length 5
  if 3 ≤ count then some (List.replicate (count - 3) quote, text.drop count) else none

/-- A string with three quotes around it, put together of pieces. A line end right after the
opening quotes is no part of it. -/
def multilineString (quote : Char) (piece : Scan (List Char)) : Scan String := do
  char quote
  char quote
  char quote
  discard (optional newline)
  let pieces ← many (piece <|> (newline *> pure ['\n']) <|> innerQuotes quote)
  let last ← closingQuotes quote
  return String.ofList (pieces.flatten ++ last)

/-- A string in any of the four forms. -/
def string : Scan String :=
  multilineString '"' (run1 isBasic <|> lineJoin <|> List.singleton <$> escape) <|>
    basicString <|>
    multilineString '\'' (run1 (isPlain '\'')) <|>
    literalString

/-! ## Numbers -/

/-- Digits, with single underscores between some of them. The underscores are left out. -/
def digitRun (isDigit : Char → Bool) : Scan (List Char) := do
  let first ← charIf isDigit
  return first :: (← many ((char '_' *> charIf isDigit) <|> charIf isDigit))

/-- A sign, plus if it is not written: whether it is a minus. -/
def sign : Scan Bool := do
  match ← optional (charIf fun c => c == '+' || c == '-') with
  | some c => return c == '-'
  | none => return false

/-- Decimal digits that do not start with a zero, or a zero alone. -/
def wholeDigits : Scan (List Char) :=
  (char '0' *> pure ['0']) <|> digitRun Char.isDigit

/-- An integer of 64 bits. -/
def int64 (negative : Bool) (magnitude : Nat) : Scan Int :=
  let value : Int := if negative then -magnitude else magnitude
  if -9223372036854775808 ≤ value ∧ value ≤ 9223372036854775807 then return value else failure

/-- An integer in a base with a prefix. -/
def basedInteger (letter : Char) (base : Nat) (isDigit : Char → Bool) : Scan Int := do
  char '0'
  char letter
  int64 false (Text.digitsValue base (← digitRun isDigit))

/-- An integer. -/
def integer : Scan Int :=
  basedInteger 'x' 16 Text.isHexDigit <|>
    basedInteger 'o' 8 (fun c => '0' ≤ c && c ≤ '7') <|>
    basedInteger 'b' 2 (fun c => c == '0' || c == '1') <|>
    do int64 (← sign) (Text.digitsValue 10 (← wholeDigits))

/-- The exponent part of a number. -/
def exponentPart : Scan Int := do
  discard (charIf fun c => c == 'e' || c == 'E')
  let negative ← sign
  let value : Int := Text.digitsValue 10 (← digitRun Char.isDigit)
  return if negative then -value else value

/-- A number with a decimal point or an exponent: the nearest binary64 number. Past the end
of the format, a negative one is infinite and a positive one is refused. -/
def finite : Scan (Option Binary64) := do
  let negative ← sign
  let whole ← wholeDigits
  let fraction ← optional (char '.' *> digitRun Char.isDigit)
  let exponent ← optional exponentPart
  guard (fraction.isSome ∨ exponent.isSome)
  let digits := whole ++ fraction.getD []
  let scale : Int := exponent.getD 0 - (fraction.getD []).length
  match Binary64.ofDecimal? (Text.digitsValue 10 digits) scale with
  | some x => return some (x.withSign negative)
  | none => if negative then return none else failure

/-- The names of infinity and of what is not a number. -/
def notFinite : Scan (Option Binary64) := do
  discard sign
  word "inf" <|> word "nan"
  return none

/-- A truth value. -/
def boolean : Scan Bool := (word "true" *> pure true) <|> (word "false" *> pure false)

/-- A value that is neither an array nor a table. -/
def scalar : Scan Value :=
  Value.string <$> string <|>
    Value.dateTime <$> DateTime.scan <|>
    Value.real <$> finite <|>
    Value.real <$> notFinite <|>
    Value.integer <$> integer <|>
    Value.bool <$> boolean

/-! ## Keys -/

def isBareChar (c : Char) : Bool :=
  c.isAlphanum || c == '_' || c == '-'

/-- One part of a key. -/
def keyPart : Scan String :=
  basicString <|> literalString <|> String.ofList <$> run1 isBareChar

/-- The number of parts, arrays and inline tables that is too many. -/
def depthLimit : Nat := 80

/-- A key: parts with dots between them. -/
def key : Scan (List String) := do
  let parts ← separated (blanks *> keyPart <* blanks) '.'
  if parts.length < depthLimit then return parts else failure

end CollectionSchema.Toml.Grammar
