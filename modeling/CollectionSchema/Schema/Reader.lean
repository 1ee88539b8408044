import CollectionSchema.Schema.Node
import CollectionSchema.Schema.ReadError

/-!
# Reading schema nodes

A node is read from the outline of a text in one pass. It is an object whose members may
stand in any order: a known member may stand once, null stands for an absent member except
for the type and the required names, and members of other names are only skimmed. An array
that holds the known members in their order is a node too. Properties are a map: of several
nodes with one name the last takes the place of the first.
-/

namespace CollectionSchema

open Json (Outline)

/-- A fault in the spelling, as an error of a typed reader. -/
def ReadError.lift {α : Type} : Except Json.Fault α → Except ReadError α
  | .ok value => .ok value
  | .error f => .error (.spelling f)

/-- One level of nesting less than `room`, if there is one. -/
def ReadError.enter (room : Nat) : Except ReadError Nat :=
  match room with
  | 0 => .error (.spelling .malformed)
  | room + 1 => .ok room

namespace Json.Outline

/-- A string. -/
def readText : Outline → Except ReadError String
  | string literal => ReadError.lift literal.text
  | outline => outline.unwanted .string

/-- An unsigned integer. -/
def readNat : Outline → Except ReadError Nat
  | number numeral =>
    match numeral.number? with
    | some (.integer n) =>
      if 0 ≤ n then .ok n.toNat
      else .error (.shape (.invalidValue (.number (.integer n)) .unsigned))
    | some n => .error (.shape (.invalidType (.number n) .unsigned))
    | none => .error (.spelling .malformed)
  | outline => outline.unwanted .unsigned

/-- A number. An array or object in its place counts as opened. -/
def readNumber (room : Nat) : Outline → Except ReadError JsonNumber
  | number numeral =>
    match numeral.number? with
    | some n => .ok n
    | none => .error (.spelling .malformed)
  | array items => do
    let _ ← ReadError.enter room
    (array items).unwanted .number
  | object members => do
    let _ ← ReadError.enter room
    (object members).unwanted .number
  | outline => outline.unwanted .number

/-- The items of an array, each read by `read`. -/
def readItems {α : Type} (read : Outline → Except ReadError α) :
    Items → Except ReadError (List α)
  | .close => .ok []
  | .fault f => .error (.spelling f)
  | .item value rest => do
    let value ← read value
    return value :: (← readItems read rest)

/-- An array. -/
def readArray {α : Type} (room : Nat) (read : Outline → Except ReadError α) :
    Outline → Except ReadError (List α)
  | array items => do
    let _ ← ReadError.enter room
    readItems read items
  | outline => outline.unwanted .sequence

/-- Whether a value is the word null. -/
def isNull : Outline → Bool
  | null => true
  | _ => false

/-- A value, or null for nothing. -/
def readOptional {α : Type} (read : Outline → Except ReadError α) (outline : Outline) :
    Except ReadError (Option α) :=
  if outline.isNull then .ok none else return some (← read outline)

end Json.Outline

namespace TypeTag

/-- A tag as it may be written: its name, or an object with that name as only member, whose
value is null. -/
def ofJson? : Json → Option TypeTag
  | .string name => ofName? name
  | .object [(name, .null)] => ofName? name
  | _ => none

/-- A tag, or what is wrong with it. -/
def read : Json → Except Mismatch TypeTag
  | .string name => named name
  | .object [(name, value)] => do
    let tag ← named name
    if value.isNull then return tag
    else .error (.invalidType (.ofJson value) .unit)
  | .object _ => .error (.invalidValue .map .singleMember)
  | value => .error (.invalidType (.ofJson value) .tag)
where
  /-- The tag with a name. -/
  named (name : String) : Except Mismatch TypeTag :=
    match ofName? name with
    | some tag => .ok tag
    | none => .error (.unknownTag name)

end TypeTag

namespace BsonType

/-- Whether a value is the mark of a nullable type, in one of the spellings of a tag. -/
def isNullMark : Json → Bool
  | .string name => name == "null"
  | .object [(name, .null)] => name == "null"
  | _ => false

/-- A type as it may be written: a tag, or a tag and the mark `null` in an array. -/
def ofJson? : Json → Option BsonType
  | .array [tag, mark] =>
    if isNullMark mark then (TypeTag.ofJson? tag).map (⟨·, true⟩) else none
  | value => (TypeTag.ofJson? value).map (⟨·, false⟩)

/-- A type. Its text is read as a whole before its shape counts. -/
def read (room : Nat) (outline : Outline) : Except ReadError BsonType := do
  let value ← ReadError.lift (outline.resolve room)
  match ofJson? value with
  | some type => return type
  | none => .error (.shape .noBsonType)

end BsonType

namespace Node

/-- The members of a node. -/
inductive Field where
  | type
  | required
  | properties
  | enumValues
  | pattern
  | minLength
  | maxLength
  | minimum
  | maximum
  | items
deriving DecidableEq, Repr

namespace Field

def name : Field → String
  | type => "bsonType"
  | required => "required"
  | properties => "properties"
  | enumValues => "enum"
  | pattern => "pattern"
  | minLength => "minLength"
  | maxLength => "maxLength"
  | minimum => "minimum"
  | maximum => "maximum"
  | items => "items"

/-- The members in their order. -/
def all : List Field :=
  [type, required, properties, enumValues, pattern, minLength, maxLength, minimum, maximum,
    items]

/-- The member with a name. -/
def ofName? (name : String) : Option Field := all.find? (·.name == name)

end Field

/-- A node before any of its members is read. -/
def blank : Node := ofType ⟨.object, false⟩

/-- Sets a member that holds no nodes from its value. -/
def setPlain (room : Nat) (node : Node) (field : Field) (value : Outline) :
    Except ReadError Node :=
  match field with
  | .type => return { node with type := ← BsonType.read room value }
  | .required => return { node with required := ← value.readArray room Outline.readText }
  | .enumValues => return { node with
      enumValues := ← value.readOptional
        (Outline.readArray room (Outline.readOptional Outline.readText)) }
  | .pattern => return { node with keywords := { node.keywords with
      pattern := ← value.readOptional Outline.readText } }
  | .minLength => return { node with keywords := { node.keywords with
      minLength := ← value.readOptional Outline.readNat } }
  | .maxLength => return { node with keywords := { node.keywords with
      maxLength := ← value.readOptional Outline.readNat } }
  | .minimum => return { node with keywords := { node.keywords with
      minimum := ← value.readOptional (Outline.readNumber room) } }
  | .maximum => return { node with keywords := { node.keywords with
      maximum := ← value.readOptional (Outline.readNumber room) } }
  | .properties | .items => return node

mutual

/-- A node, where `room` more levels may be opened. -/
def read (room : Nat) : Outline → Except ReadError Node
  | .object members => do
    let room ← ReadError.enter room
    readMembers room [] blank members
  | .array items => do
    let room ← ReadError.enter room
    readElements room Field.all blank items
  | outline => outline.unwanted .node

/-- The rest of the members of a node, where the fields `seen` have been read into `node`. -/
def readMembers (room : Nat) (seen : List Field) (node : Node) :
    Json.Members → Except ReadError Node
  | .close => if .type ∈ seen then .ok node else .error (.shape (.missingField Field.type.name))
  | .fault f => .error (.spelling f)
  | .member name value rest => do
    let name ← ReadError.lift name.text
    match Field.ofName? name with
    | none =>
      ReadError.lift value.skim
      readMembers room seen node rest
    | some field =>
      if field ∈ seen then .error (.shape (.duplicateField name))
      else
        let node ← match field with
          | .properties =>
            if value.isNull then pure node
            else pure { node with properties := some (← readProperties room value) }
          | .items =>
            if value.isNull then pure node
            else pure { node with items := some (← read room value) }
          | field => setPlain room node field value
        readMembers room (field :: seen) node rest

/-- The rest of a node that is written as an array, where `fields` are to come. -/
def readElements (room : Nat) (fields : List Field) (node : Node) :
    Json.Items → Except ReadError Node
  | .close =>
    if .type ∈ fields then .error (.shape (.emptySequence .node Field.all.length)) else .ok node
  | .fault f => .error (.spelling f)
  | .item value rest =>
    match fields with
    | [] => .error (.spelling .malformed)
    | field :: fields => do
      let node ← match field with
        | .properties =>
          if value.isNull then pure node
          else pure { node with properties := some (← readProperties room value) }
        | .items =>
          if value.isNull then pure node
          else pure { node with items := some (← read room value) }
        | field => setPlain room node field value
      readElements room fields node rest

/-- A map of properties. -/
def readProperties (room : Nat) : Outline → Except ReadError Properties
  | .object members => do
    let room ← ReadError.enter room
    readEntries room [] members
  | outline => outline.unwanted .propertyMap

/-- The rest of a map of properties. -/
def readEntries (room : Nat) (properties : Properties) :
    Json.Members → Except ReadError Properties
  | .close => .ok properties
  | .fault f => .error (.spelling f)
  | .member name value rest => do
    let name ← ReadError.lift name.text
    let node ← read room value
    readEntries room (properties.insert name node) rest

end

/-- The node that a text holds. -/
def parse (text : String) : Except ReadError Node :=
  Json.readWhole .spelling (read Json.maxNesting) text

end Node

/-- The properties that a text holds. -/
def Properties.parse (text : String) : Except ReadError Properties :=
  Json.readWhole .spelling (Node.readProperties Json.maxNesting) text

end CollectionSchema
