import CollectionSchema.Log.Event
import CollectionSchema.Text.Blank
import CollectionSchema.Text.Pattern
import CollectionSchema.Text.Pieces

/-!
# Log directives

A directive says how much is said about some events. Its text names the start of their
source, a span and a field in brackets, and behind an equals sign a level; every part may be
missing. `appliesTo` tells which events it is about, and `isLessSpecific` which of two
directives about one event gives way.
-/

namespace CollectionSchema

/-- What a field must be like. -/
structure FieldFilter where
  name : String
  /-- the text or the pattern of the value -/
  value : Option String
deriving DecidableEq, Repr

/-- How much is said about some events. -/
structure LogDirective where
  source : Option String
  span : Option String
  field : Option FieldFilter
  verbosity : Nat
deriving DecidableEq, Repr

/-! ## Parts -/

namespace FieldFilter

/-- Whether a text is a number without a sign. -/
def isUnsigned (text : List Char) : Bool :=
  let whole := text.takeWhile fun c => c.isDigit || c == '.'
  let exponent := match text.drop whole.length with
    | 'e' :: '-' :: digits | 'E' :: '-' :: digits => some digits
    | 'e' :: '+' :: digits | 'E' :: '+' :: digits => some digits
    | 'e' :: digits | 'E' :: digits => some digits
    | [] => some ['0']
    | _ => none
  whole.any Char.isDigit && whole.count '.' ≤ 1 &&
    exponent.any fun digits => !digits.isEmpty && digits.all Char.isDigit

/-- Whether a text stands for values: a pattern, or a number with a plus sign. -/
def isValue : List Char → Bool
  | '+' :: number =>
    isUnsigned number || ["inf", "infinity", "nan"].contains (String.ofList number).toLower
  | text => Text.Pattern.isWellFormed text

/-- The filter of a text: a name, and perhaps a value behind an equals sign. What stands
behind another equals sign does not count. -/
def ofText? (text : List Char) : Option FieldFilter :=
  match text, Text.pieces '=' text with
  | _ :: _, [name] => some ⟨String.ofList name, none⟩
  | _ :: _, name :: value :: _ =>
    if isValue value then some ⟨String.ofList name, some (String.ofList value)⟩ else none
  | _, _ => none

end FieldFilter

namespace LogDirective

/-- The natural that decimal digits stand for, perhaps behind a plus sign. -/
def number? (text : List Char) : Option Nat :=
  let digits := if text.head? = some '+' then text.drop 1 else text
  if digits ≠ [] ∧ digits.all Char.isDigit then some (Text.digitsValue 10 digits) else none

/-- The verbosity that a level stands for: its number or its name. -/
def verbosity? (level : List Char) : Option Nat :=
  match number? level with
  | some n => if n ≤ Level.trace.verbosity then some n else none
  | none =>
    match (String.ofList level).toLower with
    | "off" => some 0
    | "error" => some Level.error.verbosity
    | "warn" => some Level.warn.verbosity
    | "info" => some Level.info.verbosity
    | "debug" => some Level.debug.verbosity
    | "trace" => some Level.trace.verbosity
    | _ => none

/-- A character that a source may start with. -/
def isSourceStart (c : Char) : Bool :=
  Text.isAlphanumeric c || c == '-' || c == ':' || c == '_'

/-! ## Text

A directive is read along its text without the blanks around it, but its parts are taken out
of the whole text at the same places. So blanks in front move every part, and blanks behind
belong to the last one. A character is a pair: the one that is read and the one that is
taken. -/

/-- The characters up to one of `stops`, taken, and the characters from there on. -/
def upTo (stops : List Char) (chars : List (Char × Char)) :
    List Char × List (Char × Char) :=
  let (part, rest) := chars.span fun c => !stops.contains c.1
  (part.map (·.2), rest)

/-- The directive for the parts so far and what follows them: perhaps an equals sign and a
level. Without a level everything is said. -/
def withLevel? (source span : Option (List Char)) (field : Option FieldFilter)
    (chars : List (Char × Char)) (tail : List Char) : Option LogDirective :=
  let make (verbosity : Nat) : LogDirective :=
    ⟨source.map String.ofList, span.map String.ofList, field, verbosity⟩
  match chars with
  | [] => some (make Level.trace.verbosity)
  | ('=', _) :: rest =>
    match rest.map (·.2) ++ tail with
    | [] => some (make Level.trace.verbosity)
    | level => (verbosity? level).map make
  | _ => none

/-- The directive for a source and what follows the opening bracket: a span, perhaps with a
field in braces. In front of braces the name of the span may be missing. -/
def withSpan? (source : Option (List Char)) (chars : List (Char × Char)) (tail : List Char) :
    Option LogDirective :=
  match upTo [']', '{'] chars with
  | (name, (']', _) :: rest) => withLevel? source (some name) none rest tail
  | (name, ('{', _) :: rest) =>
    match upTo ['}'] rest with
    | (text, _ :: (']', _) :: rest) => do
      let field ← FieldFilter.ofText? text
      withLevel? source (if name.isEmpty then none else some name) (some field) rest tail
    | _ => none
  | _ => none

/-- The directive of a word: a level for all sources, or a source about which everything is
said. -/
def ofWord (word : List Char) : LogDirective :=
  match verbosity? word with
  | some verbosity => ⟨none, none, none, verbosity⟩
  | none => ⟨some (String.ofList word), none, none, Level.trace.verbosity⟩

/-- The directive of a text. -/
def ofText? (text : List Char) : Option LogDirective :=
  let chars := (Text.trim text).zip text
  let tail := text.drop chars.length
  match chars with
  | [] => none
  | ('[', _) :: rest => withSpan? none rest tail
  | (c, _) :: _ =>
    if !isSourceStart c then none
    else match upTo ['=', '['] chars with
      | (word, []) => some (ofWord (word ++ tail))
      | (source, ('[', _) :: rest) => withSpan? (some source) rest tail
      | (source, rest) => withLevel? (some source) none none rest tail

example : ofText? "a[\x7bb\x7d]=1".toList = some ⟨some "a", none, some ⟨"b", none⟩, 1⟩ := by
  decide +kernel

-- Blanks in front move every part.
example : ofText? " ab".toList = some ⟨some " ab", none, none, 5⟩ := by decide +kernel

/-! ## Events -/

/-- The names of the fields that an event must have. -/
def fieldNames (d : LogDirective) : List String := d.field.toList.map (·.name)

/-- Whether a directive is about an event. An event is in no span, and no value of a field is
known before the event. -/
def appliesTo (d : LogDirective) (event : Event) : Bool :=
  d.span.isNone && d.field.all (·.value.isNone) &&
    d.source.all (fun source => source.toList.isPrefixOf event.source.toList) &&
    d.fieldNames.all event.fields.contains

/-- The number of bytes in a source, from one on; nothing for all sources. -/
def sourceSize (d : LogDirective) : Nat :=
  match d.source with
  | some source => source.utf8ByteSize + 1
  | none => 0

/-- Whether a directive gives way to another one: its source is shorter, or its field comes
first in the order of texts. -/
def isLessSpecific (d other : LogDirective) : Bool :=
  d.sourceSize < other.sourceSize ||
    d.sourceSize == other.sourceSize && decide (d.fieldNames < other.fieldNames)

end LogDirective

end CollectionSchema
