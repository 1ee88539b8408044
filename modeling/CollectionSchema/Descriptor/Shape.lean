import CollectionSchema.Json.Printer

/-!
# Shapes of JSON values

A shape says of a JSON value which type it has and, for objects, which members it has. A
shape can be written as a JSON Schema, and a value can be checked against it: every place
where the value differs is a violation. A value of a wrong type has no other violation.
-/

namespace CollectionSchema

mutual

/-- A shape of JSON values. -/
inductive Shape where
  | text
  | flag
  /-- any object -/
  | map
  | list (item : Shape)
  /-- a string or null -/
  | optionalText
  /-- an object of a kind that has a name -/
  | object (kind : ObjectShape)
  /-- an object of a kind that has a name, or null -/
  | optionalObject (kind : ObjectShape)

/-- A named kind of objects: no members but these. -/
inductive ObjectShape where
  | mk (name : String) (description : Option String) (members : List MemberShape)

/-- A member of an object. `default` is the value that stands for an absent one. -/
inductive MemberShape where
  | mk (name : String) (description : Option String) (required : Bool) (default : Option Json)
      (shape : Shape)

end

namespace ObjectShape

def name : ObjectShape → String
  | mk name _ _ => name

def description : ObjectShape → Option String
  | mk _ description _ => description

def members : ObjectShape → List MemberShape
  | mk _ _ members => members

theorem members_mk (name : String) (description : Option String) (members : List MemberShape) :
    (mk name description members).members = members :=
  rfl

end ObjectShape

namespace MemberShape

def name : MemberShape → String
  | mk name _ _ _ _ => name

def required : MemberShape → Bool
  | mk _ _ required _ _ => required

end MemberShape

/-- A place where a value differs from a shape. -/
structure Violation where
  /-- the names and positions that lead to the place -/
  path : List String
  message : String
deriving DecidableEq, Repr

namespace Violation

/-- The JSON pointer of a place; the whole value is at `/`. -/
def pointer (path : List String) : String :=
  if path.isEmpty then "/" else String.join (path.map ("/" ++ ·))

/-- Violations are listed by pointer, then by message. -/
def le (a b : Violation) : Bool :=
  decide (pointer a.path < pointer b.path) ||
    pointer a.path == pointer b.path && !decide (b.message < a.message)

/-- A value of a wrong type. -/
def wrongType (path : List String) (value : Json) (type : String) : Violation :=
  ⟨path, value.compact ++ " is not of type \"" ++ type ++ "\""⟩

/-- A member that is missing. -/
def missing (path : List String) (name : String) : Violation :=
  ⟨path, "\"" ++ name ++ "\" is a required property"⟩

/-- Members that are not allowed. -/
def unexpected (path : List String) (names : List String) : Violation :=
  ⟨path, "Additional properties are not allowed (" ++
    ", ".intercalate (names.map fun name => "'" ++ name ++ "'") ++
    (if names.length = 1 then " was" else " were") ++ " unexpected)"⟩

/-- A value that is neither of several shapes. -/
def noAlternative (path : List String) (value : Json) : Violation :=
  ⟨path, value.compact ++
    " is not valid under any of the schemas listed in the 'anyOf' keyword"⟩

end Violation

namespace Shape

/-- The violations of the items of an array, from position `i` on. -/
def itemViolations (check : List String → Json → List Violation) (path : List String) (i : Nat) :
    List Json → List Violation
  | [] => []
  | item :: rest =>
    check (path ++ [String.ofList (natText i)]) item ++ itemViolations check path (i + 1) rest

mutual

/-- The violations of a shape by the value at `path`. -/
def violations (path : List String) (value : Json) : Shape → List Violation
  | .text =>
    match value with
    | .string _ => []
    | _ => [.wrongType path value "string"]
  | .flag =>
    match value with
    | .bool _ => []
    | _ => [.wrongType path value "boolean"]
  | .map =>
    match value with
    | .object _ => []
    | _ => [.wrongType path value "object"]
  | .list item =>
    match value with
    | .array items =>
      itemViolations (fun path value => violations path value item) path 0 items
    | _ => [.wrongType path value "array"]
  | .optionalText =>
    match value with
    | .string _ | .null => []
    | _ => [.noAlternative path value]
  | .object kind => objectViolations path value kind
  | .optionalObject kind =>
    if value.isNull || (objectViolations path value kind).isEmpty then []
    else [.noAlternative path value]

/-- The violations of a named kind of objects. -/
def objectViolations (path : List String) (value : Json) : ObjectShape → List Violation
  | .mk _ _ members =>
    match value with
    | .object found =>
      let unknown := (found.map (·.1)).filter fun name =>
        !members.any fun member => member.name == name
      memberViolations path found members ++
        (if unknown.isEmpty then [] else [.unexpected path unknown])
    | _ => [.wrongType path value "object"]

/-- The violations of the members of an object. -/
def memberViolations (path : List String) (found : List (String × Json)) :
    List MemberShape → List Violation
  | [] => []
  | .mk name _ required _ shape :: rest =>
    (match found.lookup name with
      | some value => violations (path ++ [name]) value shape
      | none => if required then [.missing path name] else []) ++
      memberViolations path found rest

end

section

variable (path : List String) (value : Json)

theorem violations_array (item : Shape) (items : List Json) :
    violations path (.array items) (.list item) =
      itemViolations (fun path value => violations path value item) path 0 items :=
  rfl

theorem violations_object (kind : ObjectShape) :
    violations path value (.object kind) = objectViolations path value kind :=
  rfl

theorem violations_optionalObject (kind : ObjectShape) :
    violations path value (.optionalObject kind) =
      if value.isNull || (objectViolations path value kind).isEmpty then []
      else [.noAlternative path value] :=
  rfl

theorem memberViolations_cons (found : List (String × Json)) (name : String)
    (description : Option String) (required : Bool) (default : Option Json) (shape : Shape)
    (rest : List MemberShape) :
    memberViolations path found (.mk name description required default shape :: rest) =
      (match found.lookup name with
        | some value => violations (path ++ [name]) value shape
        | none => if required then [.missing path name] else []) ++
        memberViolations path found rest :=
  rfl

end

/-- An optional description. -/
def describe : Option String → List (String × Json)
  | none => []
  | some description => [("description", .string description)]

/-- The reference to a named kind of objects. -/
def reference (kind : ObjectShape) : List (String × Json) :=
  [("$ref", .string ("#/definitions/" ++ kind.name))]

/-- The schema of a shape, as the members of an object. -/
def schema : Shape → List (String × Json)
  | .text => [("type", .string "string")]
  | .flag => [("type", .string "boolean")]
  | .map => [("type", .string "object"), ("additionalProperties", .bool true)]
  | .list item => [("type", .string "array"), ("items", .object (schema item))]
  | .optionalText => [("type", .ofStrings ["string", "null"])]
  | .object kind => reference kind
  | .optionalObject kind =>
    [("anyOf", .array [.object (reference kind), .object [("type", .string "null")]])]

/-- The schema of a member. -/
def memberSchema : MemberShape → String × Json
  | .mk name description _ default shape =>
    (name, .object <| describe description ++
      (match default with
        | none => []
        | some value => [("default", value)]) ++
      schema shape)

/-- The schema of a named kind of objects, as the members of an object. Members are listed in
ascending order. -/
def objectSchema (kind : ObjectShape) : List (String × Json) :=
  let required := (kind.members.filter (·.required)).map (·.name)
  describe kind.description ++ [("type", .string "object")] ++
    (if required.isEmpty then [] else [("required", .ofStrings (ascending required))]) ++
    [("properties", .object (ascendingByKey (kind.members.map memberSchema))),
      ("additionalProperties", .bool false)]

/-- The JSON Schema of documents that hold one object of a named kind, where `definitions`
are the kinds that it refers to. -/
def documentSchema (kind : ObjectShape) (definitions : List ObjectShape) : Json :=
  .object <|
    [("$schema", .string "http://json-schema.org/draft-07/schema#"),
      ("title", .string kind.name)] ++
    objectSchema kind ++
    [("definitions", .object <| ascendingByKey <|
      definitions.map fun kind => (kind.name, .object (objectSchema kind)))]

end Shape

end CollectionSchema
