import CollectionSchema.Json.Literal

/-!
# Tokens of JSON text

The text as a list of tokens. A fault inside a token ends the list: it is part of the token,
because what it means depends on whether a value may stand there.
-/

namespace CollectionSchema.Json

/-- A token of JSON text. -/
inductive Token where
  | openArray
  | closeArray
  | openObject
  | closeObject
  | comma
  | colon
  | null
  | bool (value : Bool)
  | number (value : Numeral)
  | string (value : Literal)
  /-- a number that breaks off -/
  | brokenNumber (f : Fault)
  /-- one of the words `null`, `true` and `false` that breaks off -/
  | brokenWord (f : Fault)
  /-- a character that starts no token -/
  | stray
deriving DecidableEq, Repr

namespace Token

/-- A blank between tokens: space, tab, line feed or carriage return. -/
def isBlank (c : Char) : Bool := c == ' ' || c == '\t' || c == '\n' || c == '\r'

/-- Takes the letters of `word` off the text. -/
def scanWord : List Char → List Char → Except Fault (List Char)
  | [], text => .ok text
  | _ :: _, [] => .error .cutOff
  | w :: word, c :: text => if w = c then scanWord word text else .error .malformed

theorem length_scanWord_le {word text rest : List Char} (h : scanWord word text = .ok rest) :
    rest.length ≤ text.length := by
  fun_induction scanWord word text <;> grind

/-- The token that a character is by itself. -/
def single? : Char → Option Token
  | '[' => some .openArray
  | ']' => some .closeArray
  | '{' => some .openObject
  | '}' => some .closeObject
  | ',' => some .comma
  | ':' => some .colon
  | _ => none

/-- The word token that starts with a character: its other letters, and the token. -/
def word? : Char → Option (List Char × Token)
  | 'n' => some (['u', 'l', 'l'], .null)
  | 't' => some (['r', 'u', 'e'], .bool true)
  | 'f' => some (['a', 'l', 's', 'e'], .bool false)
  | _ => none

/-- The number literal at the start of a text that starts with a sign or a digit. -/
def scanNumeral? (c : Char) (rest : List Char) : Option (Except Fault (Numeral × List Char)) :=
  if c = '-' then some (Numeral.scan true rest)
  else if c.isDigit then some (Numeral.scan false (c :: rest))
  else none

theorem length_scanNumeral_le {c : Char} {text rest : List Char} {n : Numeral}
    (h : scanNumeral? c text = some (.ok (n, rest))) : rest.length ≤ text.length := by
  unfold scanNumeral? at h
  split at h
  · have := Numeral.length_scan_lt (Option.some.inj h)
    omega
  · split at h
    · have := Numeral.length_scan_lt (Option.some.inj h)
      simp at this
      omega
    · cases h

/-- The tokens of a text. -/
def scan : List Char → List Token
  | [] => []
  | c :: rest =>
    if isBlank c then scan rest
    else match single? c with
      | some token => token :: scan rest
      | none =>
        if c = '"' then
          match _h : Literal.scan rest with
          | (literal, rest') => .string literal :: scan rest'
        else match word? c with
          | some (word, token) =>
            match _h : scanWord word rest with
            | .ok rest' => token :: scan rest'
            | .error f => [.brokenWord f]
          | none =>
            match _h : scanNumeral? c rest with
            | some (.ok (n, rest')) => .number n :: scan rest'
            | some (.error f) => [.brokenNumber f]
            | none => [.stray]
termination_by text => text.length
decreasing_by
  · simp
  · simp
  · have := Literal.length_scan_le rest
    simp only [_h] at this
    simp
    omega
  · have := length_scanWord_le _h
    simp
    omega
  · have := length_scanNumeral_le _h
    simp
    omega

theorem scan_blank {c : Char} (h : isBlank c = true) (text : List Char) :
    scan (c :: text) = scan text := by
  rw [scan, if_pos h]

theorem scan_single {c : Char} {token : Token} (hblank : isBlank c = false)
    (h : single? c = some token) (text : List Char) :
    scan (c :: text) = token :: scan text := by
  rw [scan, hblank]
  simp [h]

end Token

end CollectionSchema.Json
