import CollectionSchema.Declaration.Annotation
import CollectionSchema.Declaration.TypeRef

/-!
# Constraint keywords

The keywords of a schema that constrain a value. A constraint stands for keywords of
one family: a pattern, length bounds or numeric bounds.
-/

namespace CollectionSchema

/-- The constraint keywords of a node; absent ones are `none`. -/
structure Keywords where
  pattern : Option String := none
  minLength : Option Nat := none
  maxLength : Option Nat := none
  minimum : Option JsonNumber := none
  maximum : Option JsonNumber := none
deriving BEq, Repr, Inhabited

namespace Keywords

/-- Only a pattern. -/
def ofPattern (pattern : String) : Keywords := { pattern }

/-- The keywords that a constraint stands for. A fixed length is a pattern of that many digits. -/
def ofConstraint : Constraint → Keywords
  | .fixedLength length => ofPattern ("^\\d\x7b" ++ String.ofList (natText length) ++ "\x7d$")
  | .pattern pattern => ofPattern pattern
  | .lengthBounds min max => { minLength := some min, maxLength := max }
  | .numericBounds min max => { minimum := min, maximum := max }

/-- A member for a keyword that is present. -/
def optional {α : Type} (name : String) (toJson : α → Json) : Option α → List (String × Json)
  | none => []
  | some value => [(name, toJson value)]

/-- The keywords as members of an object, in their fixed order; absent ones are left out. -/
def members (k : Keywords) : List (String × Json) :=
  optional "pattern" .string k.pattern ++ optional "minLength" .ofNat k.minLength ++
    optional "maxLength" .ofNat k.maxLength ++ optional "minimum" .number k.minimum ++
    optional "maximum" .number k.maximum

/-- The keywords as a JSON value. -/
def toJson (k : Keywords) : Json := .object k.members

/-- The default pattern of strings whose property mentions `email`. -/
def emailPattern : String := "^[a-zA-Z0-9._%+-]+@[a-zA-Z0-9.-]+\\.[a-zA-Z]\x7b2,\x7d$"

/-- The default pattern of other strings: two letters at least. -/
def twoLettersPattern : String := "^(.*[a-zA-Z])\x7b2,\x7d.*$"

/-- Whether `part` stands somewhere in `text`. -/
def occursIn (part text : List Char) : Bool :=
  part.isPrefixOf text || match text with
  | [] => false
  | _ :: rest => occursIn part rest

/-- The default keywords of a property without a constraint of its own: a pattern for
strings, a minimum of one for numbers, none for everything else. -/
def default? (property : String) : TypeTag → Option Keywords
  | .string =>
    if occursIn "email".toList property.toList then some (ofPattern emailPattern)
    else some (ofPattern twoLettersPattern)
  | .number => some { minimum := some (.integer 1) }
  | .bool | .date | .array | .object | .objectId => none

end Keywords

end CollectionSchema
