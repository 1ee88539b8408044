import CollectionSchema.Declaration.TypeRef
import CollectionSchema.Schema.Keywords

/-!
# Schema nodes

A node says of a value which type it has, what its fields are, which strings it may be and
which constraints it meets. The properties of a node are a map in order of insertion.
-/

namespace CollectionSchema

/-- The type of a node: a tag, and whether null is allowed too. -/
structure BsonType where
  tag : TypeTag
  nullable : Bool
deriving DecidableEq, Repr, Inhabited

namespace BsonType

/-- The type as a JSON value: the tag, or the tag and `null` in an array. -/
def toJson (type : BsonType) : Json :=
  if type.nullable then .array [.string type.tag.name, .string "null"]
  else .string type.tag.name

end BsonType

/-- A node of a schema. In `enumValues`, `none` is the value null. -/
structure Node where
  type : BsonType
  required : List String := []
  properties : Option (List (String × Node)) := none
  enumValues : Option (List (Option String)) := none
  keywords : Keywords := {}
  items : Option Node := none
deriving BEq, Repr, Inhabited

/-- Nodes by name, in order of insertion. -/
abbrev Properties := List (String × Node)

namespace Properties

/-- Puts a node under a name: in the place of the node that has the name, else at the end. -/
def insert (name : String) (node : Node) : Properties → Properties
  | [] => [(name, node)]
  | (other, old) :: rest =>
    if other = name then (name, node) :: rest else (other, old) :: insert name node rest

/-- The map after inserting entries in order. -/
def ofList (entries : List (String × Node)) : Properties :=
  entries.foldl (fun properties entry => insert entry.1 entry.2 properties) []

/-- The node under a name. -/
def get? (properties : Properties) (name : String) : Option Node := properties.lookup name

/-- The names, in order. -/
def names (properties : Properties) : List String := properties.map (·.1)

theorem get?_insert {name other : String} {node : Node} {properties : Properties} :
    (properties.insert name node).get? other =
      if other = name then some node else properties.get? other := by
  unfold get?
  fun_induction insert name node properties <;> grind

/-- A name that is there keeps its place; a new one comes last. -/
theorem names_insert {name : String} {node : Node} {properties : Properties} :
    (properties.insert name node).names =
      if name ∈ properties.names then properties.names else properties.names ++ [name] := by
  unfold names
  fun_induction insert name node properties <;> grind

theorem nodup_names_insert {name : String} {node : Node} {properties : Properties}
    (h : properties.names.Nodup) : (properties.insert name node).names.Nodup := by
  rw [names_insert]
  split <;> grind

end Properties

namespace Node

/-- A node that says nothing but a type. -/
def ofType (type : BsonType) : Node := { type }

/-- The node of a record. -/
def object (required : List String) (properties : Properties) : Node :=
  { type := ⟨.object, false⟩, required, properties := some properties }

/-- A list of strings and nulls as a JSON value. -/
def enumJson (values : List (Option String)) : Json := .array (values.map .ofOption)

mutual

/-- The node as a JSON value. Members stand in a fixed order; what is empty is left out. -/
def toJson : Node → Json
  | ⟨type, required, properties, enumValues, keywords, items⟩ =>
    .object <|
      ("bsonType", type.toJson) ::
        (if required.isEmpty then [] else [("required", .ofStrings required)]) ++
        propertiesMember properties ++ Keywords.optional "enum" enumJson enumValues ++
        keywords.members ++ itemsMember items

def propertiesMember : Option (List (String × Node)) → List (String × Json)
  | none => []
  | some properties => [("properties", .object (toMembers properties))]

/-- The properties as members of an object. -/
def toMembers : List (String × Node) → List (String × Json)
  | [] => []
  | (name, node) :: rest => (name, toJson node) :: toMembers rest

def itemsMember : Option Node → List (String × Json)
  | none => []
  | some node => [("items", toJson node)]

end

end Node

/-- The properties as a JSON value. -/
def Properties.toJson (properties : Properties) : Json := .object (Node.toMembers properties)

end CollectionSchema
