/-!
# Types of properties

The declared type of a property: a primitive, a list, or a name of an enumeration or of a
record. Every type is stored under one of seven tags.
-/

namespace CollectionSchema

/-- The storage type of a value. -/
inductive TypeTag where
  | string
  | number
  | bool
  | date
  | array
  | object
  | objectId
deriving DecidableEq, Repr, Inhabited

namespace TypeTag

def name : TypeTag → String
  | string => "string"
  | number => "number"
  | bool => "bool"
  | date => "date"
  | array => "array"
  | object => "object"
  | objectId => "objectId"

/-- The tags in the order in which messages list them. -/
def all : List TypeTag := [string, number, bool, date, array, object, objectId]

/-- The tag with a name. -/
def ofName? (name : String) : Option TypeTag := all.find? (·.name == name)

theorem ofName?_name (tag : TypeTag) : ofName? tag.name = some tag := by
  cases tag <;> decide

end TypeTag

/-- The kinds of plain values. -/
inductive Primitive where
  | string
  | date
  | int
  | long
  | double
  | float
  | boolean
  | objectId
deriving DecidableEq, Repr, Inhabited

namespace Primitive

/-- The name by which a declaration refers to the primitive. -/
def name : Primitive → String
  | string => "String"
  | date => "Date"
  | int => "Int"
  | long => "Long"
  | double => "Double"
  | float => "Float"
  | boolean => "Boolean"
  | objectId => "ObjectId"

def all : List Primitive := [string, date, int, long, double, float, boolean, objectId]

/-- The primitive with a name. -/
def ofName? (name : String) : Option Primitive := all.find? (·.name == name)

theorem ofName?_name (primitive : Primitive) : ofName? primitive.name = some primitive := by
  cases primitive <;> decide

/-- The storage tag: all numeric kinds share one. -/
def tag : Primitive → TypeTag
  | string => .string
  | date => .date
  | int | long | double | float => .number
  | boolean => .bool
  | objectId => .objectId

end Primitive

/-- The declared type of a property. -/
inductive TypeRef where
  | primitive (kind : Primitive)
  | enumeration (name : String)
  | list (element : TypeRef)
  | record (name : String)
deriving DecidableEq, Repr, Inhabited

namespace TypeRef

/-- The text of a type: lists as `List<…>`, everything else by its name. -/
def display : TypeRef → String
  | primitive kind => kind.name
  | enumeration name | record name => name
  | list element => "List<" ++ element.display ++ ">"

/-- The name of the declaration that a type refers to, looking through lists. -/
def declaration? : TypeRef → Option String
  | primitive _ => none
  | enumeration name | record name => some name
  | list element => element.declaration?

/-- The name of the record that a type embeds, looking through lists. -/
def record? : TypeRef → Option String
  | record name => some name
  | list element => element.record?
  | primitive _ | enumeration _ => none

/-- The storage tag: enumerations are stored as strings, records as objects. -/
def tag : TypeRef → TypeTag
  | primitive kind => kind.tag
  | enumeration _ => .string
  | list _ => .array
  | record _ => .object

end TypeRef

end CollectionSchema
