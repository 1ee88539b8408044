import CollectionSchema.Text.Alphanumeric
import CollectionSchema.Text.Digit

/-!
# Patterns

A pattern is a text that stands for a set of texts: alternatives of sequences of characters,
classes in brackets, groups in parentheses and escapes, each of which may be repeated. Here
is told only which texts are well-formed patterns. Repetitions with bounds, references to
groups and the edges of words are no part of patterns.
-/

namespace CollectionSchema.Text.Pattern

/-- What an escape stands for. -/
inductive Escape where
  | character (c : Char)
  | someClass
  /-- an end of the text -/
  | edge
deriving DecidableEq, Repr

/-- An escape by a code point of `count` hex digits. -/
def hexEscape? (count : Nat) (text : List Char) : Option (Escape × List Char) :=
  let digits := text.take count
  let n := digitsValue 16 digits
  if digits.length = count ∧ digits.all isHexDigit ∧ n.isValidChar then
    some (.character (Char.ofNat n), text.drop count)
  else none

/-- Reads an escape after its backslash: what it stands for, and what follows. -/
def escape? : List Char → Option (Escape × List Char)
  | [] => none
  | 'x' :: rest => hexEscape? 2 rest
  | 'u' :: rest => hexEscape? 4 rest
  | 'U' :: rest => hexEscape? 8 rest
  | 'p' :: c :: rest | 'P' :: c :: rest =>
    if "CLMNPSZ".contains c.toUpper then some (.someClass, rest) else none
  | 'a' :: rest => some (.character '\x07', rest)
  | 't' :: rest => some (.character '\t', rest)
  | 'n' :: rest => some (.character '\n', rest)
  | 'v' :: rest => some (.character '\x0b', rest)
  | 'f' :: rest => some (.character '\x0c', rest)
  | 'r' :: rest => some (.character '\r', rest)
  | c :: rest =>
    if "dswDSW".contains c then some (.someClass, rest)
    else if c = 'A' ∨ c = 'z' then some (.edge, rest)
    else if c.toNat < 0x80 ∧ !c.isAlphanum ∧ c ≠ '<' ∧ c ≠ '>' then some (.character c, rest)
    else none

/-! ## Classes -/

/-- Reads an item of a class: its character, if it is one, and what follows. -/
def classItem? : List Char → Option (Option Char × List Char)
  | [] => none
  | '\\' :: rest =>
    match escape? rest with
    | some (.character c, rest) => some (some c, rest)
    | some (.someClass, rest) => some (none, rest)
    | _ => none
  | c :: rest => some (some c, rest)

/-- Reads an item or a range of a class. What follows is given. -/
def classRange? (text : List Char) : Option (List Char) := do
  let (first, rest) ← classItem? text
  match rest with
  | '-' :: ']' :: _ | '-' :: '-' :: _ => return rest
  | '-' :: rest => do
    let (last, rest) ← classItem? rest
    if (← first) ≤ (← last) then return rest else failure
  | _ => return rest

/-- The text after the first characters of a class, which may be a caret, dashes, and a
closing bracket that stands for itself. -/
def afterClassStart (text : List Char) : List Char :=
  let text := if text.head? = some '^' then text.drop 1 else text
  match text.dropWhile (· == '-') with
  | ']' :: rest => if text.head? = some ']' then rest else ']' :: rest
  | rest => rest

/-- Reads on to the end of `depth` classes, each inside the one before it. What follows is
given. There are no more than `fuel` steps. -/
def closeClasses? : (fuel depth : Nat) → List Char → Option (List Char)
  | _, 0, text => some text
  | 0, _, _ => none
  | fuel + 1, depth + 1, text =>
    match text with
    | [] => none
    | ']' :: rest => closeClasses? fuel depth rest
    | '[' :: rest => closeClasses? fuel (depth + 2) (afterClassStart rest)
    | '&' :: '&' :: rest | '-' :: '-' :: rest | '~' :: '~' :: rest =>
      closeClasses? fuel (depth + 1) rest
    | text => (classRange? text).bind (closeClasses? fuel (depth + 1))

/-! ## Groups -/

/-- Whether characters are flags: letters, none of them twice, with a dash in front of those
that are switched off. -/
def areFlags (flags : List Char) : Bool :=
  flags.all (fun c => "imsUuRx-".contains c) && flags.all (fun c => flags.count c = 1) &&
    flags.getLast? != some '-'

/-- Whether characters are the name of a group. -/
def isGroupName : List Char → Bool
  | [] => false
  | c :: rest => (c == '_' || isAlphanumeric c && !c.isDigit) &&
      rest.all fun c => isAlphanumeric c || "_.[]".contains c

/-- Reads a name up to its closing bracket. -/
def groupName? (text : List Char) : Option (List Char × List Char) :=
  let name := text.takeWhile (· != '>')
  match text.dropWhile (· != '>') with
  | _ :: rest => if isGroupName name then some (name, rest) else none
  | [] => none

/-- The start of a group. -/
inductive GroupStart where
  | opened (name : Option (List Char))
  /-- flags for what follows: no group at all -/
  | flags
deriving DecidableEq, Repr

/-- Reads the start of a group after its parenthesis, and what follows. -/
def groupStart? : List Char → Option (GroupStart × List Char)
  | '?' :: 'P' :: '<' :: rest | '?' :: '<' :: rest => do
    let (name, rest) ← groupName? rest
    return (.opened (some name), rest)
  | '?' :: rest =>
    let flags := rest.takeWhile fun c => c != ':' && c != ')'
    if !areFlags flags then none
    else match rest.drop flags.length with
      | ':' :: rest => some (.opened none, rest)
      | ')' :: rest => if flags.isEmpty then none else some (.flags, rest)
      | _ => none
  | rest => some (.opened none, rest)

/-! ## Patterns -/

/-- Whether the rest of a pattern is well-formed, inside `depth` groups and after groups with
the names `names`. There are no more than `fuel` steps. Only something can be repeated. -/
def isRest : (fuel depth : Nat) → (names : List (List Char)) → (repeatable : Bool) →
    List Char → Bool
  | _, depth, _, _, [] => depth == 0
  | 0, _, _, _, _ => false
  | fuel + 1, depth, names, repeatable, c :: rest =>
    match c with
    | '|' => isRest fuel depth names false rest
    | '*' | '+' | '?' => repeatable && isRest fuel depth names true rest
    | '{' => false
    | ')' => depth != 0 && isRest fuel (depth - 1) names true rest
    | '(' =>
      match groupStart? rest with
      | some (.flags, rest) => isRest fuel depth names false rest
      | some (.opened none, rest) => isRest fuel (depth + 1) names false rest
      | some (.opened (some name), rest) =>
        !names.contains name && isRest fuel (depth + 1) (name :: names) false rest
      | none => false
    | '[' =>
      match closeClasses? rest.length 1 (afterClassStart rest) with
      | some rest => isRest fuel depth names true rest
      | none => false
    | '\\' =>
      match escape? rest with
      | some (_, rest) => isRest fuel depth names true rest
      | none => false
    | _ => isRest fuel depth names true rest

/-- Whether a text is a well-formed pattern. Every step takes a character at least. -/
def isWellFormed (text : List Char) : Bool := isRest text.length 0 [] false text

example : isWellFormed ['(', 'a', '|', '[', ']', 'b', ']', '*', ')'] := by decide +kernel
example : isWellFormed ['(', '*', ')'] = false := by decide +kernel

end CollectionSchema.Text.Pattern
