import CollectionSchema.Declaration.TypeRef
import CollectionSchema.Json.Printer
import CollectionSchema.Json.Reader
import CollectionSchema.Text.Quoted

/-!
# Errors of typed readers

A typed reader goes through a text once and stops at the first problem: a fault in the
spelling, or a value of the wrong shape.
-/

namespace CollectionSchema

/-- A value that was found where another was wanted. -/
inductive Found where
  | null
  | bool (value : Bool)
  | number (value : JsonNumber)
  | string (value : String)
  | sequence
  | map
deriving Repr

namespace Found

def text : Found → String
  | null => "null"
  | bool value => "boolean `" ++ String.ofList (Json.boolText value) ++ "`"
  | number (.integer value) => "integer `" ++ String.ofList (intText value) ++ "`"
  | number value => "floating point `" ++ String.ofList value.text ++ "`"
  | string value => "string " ++ String.ofList (Text.quoted value.toList)
  | sequence => "sequence"
  | map => "map"

def ofJson : Json → Found
  | .null => null
  | .bool value => bool value
  | .number value => number value
  | .string value => string value
  | .array _ => sequence
  | .object _ => map

/-- What an outline starts with, or the fault in it. -/
def ofOutline : Json.Outline → Except Json.Fault Found
  | .null => .ok null
  | .bool value => .ok (bool value)
  | .number value =>
    match value.number? with
    | some value => .ok (number value)
    | none => .error .malformed
  | .brokenNumber f => .error f
  | .string literal => return string (← literal.text)
  | .array _ => .ok sequence
  | .object _ => .ok map
  | .fault f => .error f

end Found

/-- What a reader wants. -/
inductive Wanted where
  | node
  | wrapper
  | string
  | sequence
  | unsigned
  | number
  | propertyMap
  | tag
  | unit
  | singleMember
deriving DecidableEq, Repr

def Wanted.text : Wanted → String
  | node => "struct SchemaNode"
  | wrapper => "struct OwnedWrapper"
  | string => "a string"
  | sequence => "a sequence"
  | unsigned => "u64"
  | number => "a JSON number"
  | propertyMap => "a map of property schemas"
  | tag => "string or map"
  | unit => "unit"
  | singleMember => "map with a single key"

/-- How a value differs from the wanted shape. -/
inductive Mismatch where
  | missingField (name : String)
  | duplicateField (name : String)
  | unknownField (name : String)
  | invalidType (found : Found) (wanted : Wanted)
  | invalidValue (found : Found) (wanted : Wanted)
  /-- an array without items, where one of `fields` items is wanted -/
  | emptySequence (wanted : Wanted) (fields : Nat)
  | unknownTag (name : String)
  | noBsonType
deriving Repr

namespace Mismatch

/-- The name of the only member of a document. -/
def documentMember : String := "$jsonSchema"

def message : Mismatch → String
  | missingField name => "missing field `" ++ name ++ "`"
  | duplicateField name => "duplicate field `" ++ name ++ "`"
  | unknownField name => "unknown field `" ++ name ++ "`, expected `" ++ documentMember ++ "`"
  | invalidType found wanted =>
    "invalid type: " ++ found.text ++ ", expected " ++ wanted.text
  | invalidValue found wanted =>
    "invalid value: " ++ found.text ++ ", expected " ++ wanted.text
  | emptySequence wanted fields =>
    "invalid length 0, expected " ++ wanted.text ++ " with " ++ String.ofList (natText fields) ++
      (if fields = 1 then " element" else " elements")
  | unknownTag name =>
    "unknown variant `" ++ name ++ "`, expected one of " ++
      ", ".intercalate (TypeTag.all.map fun tag => "`" ++ tag.name ++ "`")
  | noBsonType => "data did not match any variant of untagged enum BsonTypeRepr"

end Mismatch

/-- Why a text cannot be read. -/
inductive ReadError where
  | spelling (f : Json.Fault)
  | shape (m : Mismatch)
deriving Repr

/-- The error of a value that is not the wanted one. A fault in the value counts first. -/
def Json.Outline.unwanted {α : Type} (wanted : Wanted) (outline : Json.Outline) :
    Except ReadError α :=
  match Found.ofOutline outline with
  | .ok found => .error (.shape (.invalidType found wanted))
  | .error f => .error (.spelling f)

end CollectionSchema
