import CollectionSchema.Json.Token

/-!
# Outlines of JSON text

The outline of a text is its syntax tree as far as the text is JSON: where the text breaks
off, the tree holds the fault in place of what should stand there. Every text has an
outline, and a reader that walks the outline in order meets the problems of a text, those
of its spelling and those of its meaning, in the order in which they stand in it.

An outline is built by a fold over the tokens; its state is the stack of the arrays and
objects that are still open.
-/

namespace CollectionSchema.Json

mutual

/-- The syntax tree of a text that may break off. -/
inductive Outline where
  | null
  | bool (value : Bool)
  | number (value : Numeral)
  | brokenNumber (f : Fault)
  | string (value : Literal)
  | array (items : Items)
  | object (members : Members)
  /-- no value: the text breaks off where one should start, or inside a word -/
  | fault (f : Fault)

/-- The items of an array up to its closing bracket, or to a fault. -/
inductive Items where
  | close
  | fault (f : Fault)
  | item (value : Outline) (rest : Items)

/-- The members of an object up to its closing brace, or to a fault. -/
inductive Members where
  | close
  | fault (f : Fault)
  | member (name : Literal) (value : Outline) (rest : Members)

end

namespace Outline

/-- The items in front of `tail`, given last first. -/
def Items.ofReversed (before : List Outline) (tail : Items) : Items :=
  before.foldl (fun rest value => .item value rest) tail

/-- The members in front of `tail`, given last first. -/
def Members.ofReversed (before : List (Literal × Outline)) (tail : Members) : Members :=
  before.foldl (fun rest entry => .member entry.1 entry.2 rest) tail

/-- A place for a value inside an open array or object, with what stands before it there,
last first. -/
inductive Slot where
  | item (before : List Outline)
  | member (before : List (Literal × Outline)) (name : Literal)

/-- What has been read, and what may follow. -/
inductive State where
  /-- a value must follow -/
  | value (stack : List Slot)
  /-- an array was opened -/
  | firstItem (stack : List Slot)
  /-- an item of an array is complete -/
  | afterItem (items : List Outline) (stack : List Slot)
  /-- an object was opened -/
  | firstName (stack : List Slot)
  /-- a comma stands behind a member: a name must follow -/
  | name (members : List (Literal × Outline)) (stack : List Slot)
  /-- a colon must follow a name -/
  | colon (members : List (Literal × Outline)) (name : Literal) (stack : List Slot)
  /-- a member of an object is complete -/
  | afterMember (members : List (Literal × Outline)) (stack : List Slot)
  /-- the outline is complete; `trailing` tells whether more text follows -/
  | done (outline : Outline) (trailing : Bool)

/-- Puts a complete value into its slot. -/
def place (value : Outline) : List Slot → State
  | [] => .done value false
  | .item before :: stack => .afterItem (value :: before) stack
  | .member before name :: stack => .afterMember ((name, value) :: before) stack

/-- Closes everything that is open around a value, because of a fault behind it. -/
def enclose (f : Fault) : Outline → List Slot → Outline
  | value, [] => value
  | value, .item before :: stack =>
    enclose f (.array (Items.ofReversed (value :: before) (.fault f))) stack
  | value, .member before name :: stack =>
    enclose f (.object (Members.ofReversed ((name, value) :: before) (.fault f))) stack

/-- The outline when a fault ends the text. -/
def abandon (f : Fault) : State → Outline
  | .value stack => enclose f (.fault f) stack
  | .firstItem stack => enclose f (.array (.fault f)) stack
  | .afterItem items stack => enclose f (.array (Items.ofReversed items (.fault f))) stack
  | .firstName stack => enclose f (.object (.fault f)) stack
  | .name members stack => enclose f (.object (Members.ofReversed members (.fault f))) stack
  | .colon members name stack =>
    enclose f (.object (Members.ofReversed ((name, .fault f) :: members) (.fault f))) stack
  | .afterMember members stack =>
    enclose f (.object (Members.ofReversed members (.fault f))) stack
  | .done outline _ => outline

/-- The state after a token that is expected to start a value. -/
def start (stack : List Slot) : Token → State
  | .null => place .null stack
  | .bool b => place (.bool b) stack
  | .number n => place (.number n) stack
  | .brokenNumber f => place (.brokenNumber f) stack
  | .brokenWord f => place (.fault f) stack
  | .string literal => place (.string literal) stack
  | .openArray => .firstItem stack
  | .openObject => .firstName stack
  | .closeArray | .closeObject | .comma | .colon | .stray =>
    .done (abandon .malformed (.value stack)) false

/-- The state after a token. A token that cannot stand where it does ends the outline. -/
def step (state : State) (token : Token) : State :=
  match state, token with
  | .value stack, token => start stack token
  | .firstItem stack, .closeArray => place (.array .close) stack
  | .firstItem stack, token => start (.item [] :: stack) token
  | .afterItem items stack, .comma => .value (.item items :: stack)
  | .afterItem items stack, .closeArray => place (.array (Items.ofReversed items .close)) stack
  | .firstName stack, .closeObject => place (.object .close) stack
  | .firstName stack, .string name => .colon [] name stack
  | .name members stack, .string name => .colon members name stack
  | .colon members name stack, .colon => .value (.member members name :: stack)
  | .afterMember members stack, .comma => .name members stack
  | .afterMember members stack, .closeObject =>
    place (.object (Members.ofReversed members .close)) stack
  | .done outline _, _ => .done outline true
  | state, _ => .done (abandon .malformed state) false

end Outline

/-- The outline of a text, and whether more follows behind a complete value. -/
def outline (text : List Char) : Outline × Bool :=
  match (Token.scan text).foldl Outline.step (.value []) with
  | .done outline trailing => (outline, trailing)
  | state => (Outline.abandon .cutOff state, false)

end CollectionSchema.Json
