import CollectionSchema.Declaration.TypeRef
import CollectionSchema.Text.Blank

/-!
# Type names

The reader of the text form of types: `List<` and `>` around an element, or a name without
brackets, commas and blanks; blanks around either are ignored. A name is a primitive if
there is one of that name, else an enumeration if one is declared, else a record.
-/

namespace CollectionSchema

/-- Why a text is no type name. -/
inductive TypeNameError where
  | empty
  | malformed (name : String)
deriving DecidableEq, Repr

def TypeNameError.message : TypeNameError → String
  | empty => "type name is empty"
  | malformed name => "malformed type name: " ++ name

namespace TypeName

/-- Characters that no plain name holds. -/
def isReserved (c : Char) : Bool := c == '<' || c == '>' || c == ',' || Text.isBlank c

/-- The type that a plain name refers to, where `enums` are the declared enumerations. -/
def refer (enums : List String) (name : String) : TypeRef :=
  match Primitive.ofName? name with
  | some kind => .primitive kind
  | none => if name ∈ enums then .enumeration name else .record name

/-- What stands between `List<` and `>`, for a text that starts with the former. The inner
`none` is a missing `>`. -/
def element? : List Char → Option (Option (List Char))
  | 'L' :: 'i' :: 's' :: 't' :: '<' :: rest =>
    some (if rest.getLast? = some '>' then some rest.dropLast else none)
  | _ => none

theorem length_lt_of_element? {text inner : List Char} (h : element? text = some (some inner)) :
    inner.length < text.length := by
  unfold element? at h
  split at h
  · split at h
    · cases h
      simp
      omega
    · cases h
  · cases h

/-- Reads a type name given as characters. -/
def read (enums : List String) (text : List Char) : Except TypeNameError TypeRef :=
  let name := Text.trim text
  if name.isEmpty then .error .empty
  else match _h : element? name with
    | some (some inner) => return .list (← read enums inner)
    | some none => .error (.malformed (String.ofList name))
    | none =>
      if name.any isReserved then .error (.malformed (String.ofList name))
      else .ok (refer enums (String.ofList name))
termination_by text.length
decreasing_by
  have : inner.length < (Text.trim text).length := length_lt_of_element? _h
  have := Text.length_trim_le text
  omega

end TypeName

/-- The type that a text names, where `enums` are the declared enumerations. -/
def TypeRef.parse (enums : List String) (text : String) : Except TypeNameError TypeRef :=
  TypeName.read enums text.toList

end CollectionSchema
