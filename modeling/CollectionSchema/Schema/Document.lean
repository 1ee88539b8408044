import CollectionSchema.Schema.Reader

/-!
# Documents

A document is an object with a single member, which holds a schema node. It is written as
indented text with a line feed at the end.
-/

namespace CollectionSchema.Document

open Json (Outline)

/-- The value of a document. -/
def toJson (node : Node) : Json := .object [(Mismatch.documentMember, node.toJson)]

/-- The text of a document. -/
def render (node : Node) : String :=
  String.ofList (Json.write .pretty 0 (toJson node) ++ ['\n'])

/-- The rest of the members of a document, where `found` is the node so far. -/
def readMembers (room : Nat) (found : Option Node) : Json.Members → Except ReadError Node
  | .close =>
    match found with
    | some node => .ok node
    | none => .error (.shape (.missingField Mismatch.documentMember))
  | .fault f => .error (.spelling f)
  | .member name value rest => do
    let name ← ReadError.lift name.text
    if name ≠ Mismatch.documentMember then .error (.shape (.unknownField name))
    else if found.isSome then .error (.shape (.duplicateField name))
    else
      let node ← Node.read room value
      readMembers room (some node) rest

/-- A document that is written as an array of its only member. -/
def readElements (room : Nat) : Json.Items → Except ReadError Node
  | .close => .error (.shape (.emptySequence .wrapper 1))
  | .fault f => .error (.spelling f)
  | .item value rest => do
    let node ← Node.read room value
    match rest with
    | .close => .ok node
    | .fault f => .error (.spelling f)
    | .item _ _ => .error (.spelling .malformed)

/-- A document. -/
def read (room : Nat) : Outline → Except ReadError Node
  | .object members => do
    let room ← ReadError.enter room
    readMembers room none members
  | .array items => do
    let room ← ReadError.enter room
    readElements room items
  | outline => outline.unwanted .wrapper

/-- The node of a document text. -/
def parse (text : String) : Except ReadError Node :=
  Json.readWhole .spelling (read Json.maxNesting) text

/-- The file name of the document of a record with a simple name. -/
def fileName (simpleName suffix : String) : String := simpleName ++ suffix ++ ".json"

end CollectionSchema.Document
