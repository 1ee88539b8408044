import CollectionSchema.Text.Digit

/-!
# Scans

A scan takes a piece off the start of a text, or fails. Scans are put together with `do` and
`<|>`; the second side of `<|>` starts where the first one did.
-/

namespace CollectionSchema.Toml

/-- A scan of a text: what it found, and the rest of the text. -/
abbrev Scan := StateT (List Char) Option

namespace Scan

variable {α : Type}

/-- The next character, which is not taken. -/
def next? : Scan (Option Char) := fun text => some (text.head?, text)

/-- The next character, if `p` holds for it. -/
def charIf (p : Char → Bool) : Scan Char
  | c :: rest => if p c then some (c, rest) else none
  | [] => none

/-- The character `c`. -/
def char (c : Char) : Scan Unit := discard (charIf (· == c))

/-- The characters of `word`. -/
def word (word : String) : Scan Unit := word.toList.forM char

/-- The longest run of characters for which `p` holds. -/
def run (p : Char → Bool) : Scan (List Char) := fun text =>
  some (text.takeWhile p, text.dropWhile p)

/-- The longest run of characters for which `p` holds, which must not be empty. -/
def run1 (p : Char → Bool) : Scan (List Char) := do
  let found ← run p
  if found.isEmpty then failure else return found

/-- The end of the text. -/
def atEnd : Scan Bool := return (← next?).isNone

/-- `piece` as often as it succeeds, at most `limit` times. -/
def manyWithin (piece : Scan α) : Nat → Scan (List α)
  | 0 => return []
  | limit + 1 => do
    match ← optional piece with
    | none => return []
    | some found => return found :: (← manyWithin piece limit)

/-- `piece` as often as it succeeds. Every piece takes a character at least, so there are no
more pieces than characters. -/
def many (piece : Scan α) : Scan (List α) := fun text => manyWithin piece text.length text

/-- `piece` once or more, with `separator` between. -/
def separated (piece : Scan α) (separator : Char) : Scan (List α) :=
  return (← piece) :: (← many (char separator *> piece))

/-- A number of exactly `count` decimal digits. -/
def fixedDigits (count : Nat) : Scan Nat := do
  let digits ← (List.replicate count ()).mapM fun _ => charIf Char.isDigit
  return Text.digitsValue 10 digits

/-- What a text holds, if the scan takes all of it. -/
def whole? (scan : Scan α) (text : List Char) : Option α :=
  match scan text with
  | some (found, []) => some found
  | _ => none

end Scan

end CollectionSchema.Toml
