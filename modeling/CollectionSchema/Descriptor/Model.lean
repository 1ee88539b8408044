import CollectionSchema.Descriptor.Shape

/-!
# Descriptors

A descriptor lists records, enumerations and pending names, with the types of properties as
text. It has a JSON form: `Descriptor.toJson` writes it, `Descriptor.ofJson?` reads it, and
`Descriptor.shape` is its shape.
-/

namespace CollectionSchema

/-- An annotation of a property. The arguments are ascending by name. -/
structure AnnotationEntry where
  name : String
  args : List (String × Json)
deriving BEq, Repr

/-- A property of a record, with its type as text. -/
structure PropertyEntry where
  name : String
  typeName : String
  nullable : Bool
  annotations : List AnnotationEntry
deriving BEq, Repr

/-- The mark of a root, with the name of its collection if it is known. -/
structure RootEntry where
  collection : Option String
deriving BEq, Repr

/-- A record. -/
structure RecordEntry where
  name : String
  root : Option RootEntry
  properties : List PropertyEntry
deriving BEq, Repr

/-- An enumeration. -/
structure EnumEntry where
  name : String
  values : List String
deriving BEq, Repr

/-- A descriptor: its entries in declaration order, and the names of incomplete records. -/
structure Descriptor where
  records : List RecordEntry
  enums : List EnumEntry
  pending : List String
deriving BEq, Repr

/-! ## Writing -/

/-- A member that is left out when the list that it holds is empty. -/
def Json.unlessEmpty (name : String) (items : List Json) : List (String × Json) :=
  if items.isEmpty then [] else [(name, .array items)]

def AnnotationEntry.toJson (a : AnnotationEntry) : Json :=
  .object <| ("name", .string a.name) ::
    if a.args.isEmpty then [] else [("args", .object a.args)]

def PropertyEntry.toJson (p : PropertyEntry) : Json :=
  .object <| [("name", .string p.name), ("type", .string p.typeName),
    ("nullable", .bool p.nullable)] ++
    Json.unlessEmpty "annotations" (p.annotations.map (·.toJson))

def RootEntry.toJson (r : RootEntry) : Json :=
  .object <| match r.collection with
  | none => []
  | some collection => [("collection_name", .string collection)]

def RecordEntry.toJson (r : RecordEntry) : Json :=
  .object <| [("name", .string r.name)] ++
    (match r.root with
      | none => []
      | some root => [("schema_root", root.toJson)]) ++
    [("properties", .array (r.properties.map (·.toJson)))]

def EnumEntry.toJson (e : EnumEntry) : Json :=
  .object [("name", .string e.name), ("values", .ofStrings e.values)]

/-- The descriptor as a JSON value. -/
def Descriptor.toJson (d : Descriptor) : Json :=
  .object <| [("records", .array (d.records.map (·.toJson))),
    ("enums", .array (d.enums.map (·.toJson)))] ++
    Json.unlessEmpty "pending" (d.pending.map .string)

/-! ## Reading -/

namespace Json

/-- The members of an object that has no members but those called `names`. -/
def membersWithin? (names : List String) : Json → Option (List (String × Json))
  | .object members => if members.all (names.contains ·.1) then some members else none
  | _ => none

def string? : Json → Option String
  | .string value => some value
  | _ => none

def bool? : Json → Option Bool
  | .bool value => some value
  | _ => none

def object? : Json → Option (List (String × Json))
  | .object members => some members
  | _ => none

/-- An array whose items are all read by `read?`. -/
def list? {α : Type} (read? : Json → Option α) : Json → Option (List α)
  | .array items => items.mapM read?
  | _ => none

/-- A value, or null for nothing. -/
def optional? {α : Type} (read? : Json → Option α) : Json → Option (Option α)
  | .null => some none
  | value => (read? value).map some

/-- A member that must be there. -/
def required? {α : Type} (members : List (String × Json)) (name : String)
    (read? : Json → Option α) : Option α :=
  (members.lookup name).bind read?

/-- A member that `default` stands for when it is absent. -/
def defaulted? {α : Type} (members : List (String × Json)) (name : String) (default : α)
    (read? : Json → Option α) : Option α :=
  match members.lookup name with
  | none => some default
  | some value => read? value

end Json

def AnnotationEntry.ofJson? (value : Json) : Option AnnotationEntry := do
  let members ← value.membersWithin? ["name", "args"]
  let name ← Json.required? members "name" Json.string?
  let args ← Json.defaulted? members "args" [] Json.object?
  return { name, args }

def PropertyEntry.ofJson? (value : Json) : Option PropertyEntry := do
  let members ← value.membersWithin? ["name", "type", "nullable", "annotations"]
  let name ← Json.required? members "name" Json.string?
  let typeName ← Json.required? members "type" Json.string?
  let nullable ← Json.defaulted? members "nullable" false Json.bool?
  let annotations ←
    Json.defaulted? members "annotations" [] (Json.list? AnnotationEntry.ofJson?)
  return { name, typeName, nullable, annotations }

def RootEntry.ofJson? (value : Json) : Option RootEntry := do
  let members ← value.membersWithin? ["collection_name"]
  let collection ←
    Json.defaulted? members "collection_name" none (Json.optional? Json.string?)
  return { collection }

def RecordEntry.ofJson? (value : Json) : Option RecordEntry := do
  let members ← value.membersWithin? ["name", "schema_root", "properties"]
  let name ← Json.required? members "name" Json.string?
  let root ← Json.defaulted? members "schema_root" none (Json.optional? RootEntry.ofJson?)
  let properties ← Json.defaulted? members "properties" [] (Json.list? PropertyEntry.ofJson?)
  return { name, root, properties }

def EnumEntry.ofJson? (value : Json) : Option EnumEntry := do
  let members ← value.membersWithin? ["name", "values"]
  let name ← Json.required? members "name" Json.string?
  let values ← Json.required? members "values" (Json.list? Json.string?)
  return { name, values }

/-- The descriptor that a JSON value holds, if it is one. -/
def Descriptor.ofJson? (value : Json) : Option Descriptor := do
  let members ← value.membersWithin? ["records", "enums", "pending"]
  let records ← Json.defaulted? members "records" [] (Json.list? RecordEntry.ofJson?)
  let enums ← Json.defaulted? members "enums" [] (Json.list? EnumEntry.ofJson?)
  let pending ← Json.defaulted? members "pending" [] (Json.list? Json.string?)
  return { records, enums, pending }

/-! ## Shape -/

def AnnotationEntry.shape : ObjectShape :=
  .mk "AnnotationEntry" (some "Annotation name plus raw arguments.") [
    .mk "name" none true none .text,
    .mk "args" none false none .map]

def PropertyEntry.shape : ObjectShape :=
  .mk "PropertyEntry" none [
    .mk "name" none true none .text,
    .mk "type"
      (some "Declared type: a primitive name, `List<T>`, an enum name or a record name.")
      true none .text,
    .mk "nullable" (some "Nullable properties are optional in the generated schema.")
      false (some (.bool false)) .flag,
    .mk "annotations" none false none (.list (.object AnnotationEntry.shape))]

def RootEntry.shape : ObjectShape :=
  .mk "SchemaRootEntry" (some "Schema root marker.") [
    .mk "collection_name" (some "Logical collection the schema validates.")
      false none .optionalText]

def RecordEntry.shape : ObjectShape :=
  .mk "RecordEntry" (some "A named record type.") [
    .mk "name" (some "Fully-qualified record name.") true none .text,
    .mk "schema_root" (some "Present when the record is the root of a stored collection.")
      false none (.optionalObject RootEntry.shape),
    .mk "properties" none false (some (.array [])) (.list (.object PropertyEntry.shape))]

def EnumEntry.shape : ObjectShape :=
  .mk "EnumEntry" none [
    .mk "name" none true none .text,
    .mk "values" (some "Enum constants, in declaration order.") true none (.list .text)]

/-- The shape of descriptors. -/
def Descriptor.shape : ObjectShape :=
  .mk "Descriptor" (some "Top-level descriptor document.") [
    .mk "records" (some "Record declarations, in declaration order.")
      false (some (.array [])) (.list (.object RecordEntry.shape)),
    .mk "enums" (some "Enum declarations.")
      false (some (.array [])) (.list (.object EnumEntry.shape)),
    .mk "pending"
      (some "Records known to be incomplete; schema roots listed here are deferred.")
      false none (.list .text)]

/-- The JSON Schema of descriptors. -/
def Descriptor.schema : Json :=
  Shape.documentSchema Descriptor.shape
    [AnnotationEntry.shape, EnumEntry.shape, PropertyEntry.shape, RecordEntry.shape,
      RootEntry.shape]

end CollectionSchema
