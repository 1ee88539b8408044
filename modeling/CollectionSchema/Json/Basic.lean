import CollectionSchema.Ascending
import CollectionSchema.Numeric.Layout

/-!
# JSON values

Numbers keep the form they were written in: an integer stays an integer, anything else is a
binary64 number. An object is a list of members, in the order in which they are written;
`Json.sorted` puts the members of every object into the order of their names and keeps the
last of several members with one name.
-/

namespace CollectionSchema

/-- A JSON number: an integer of at most 64 bits, or a finite binary64 number. -/
inductive JsonNumber where
  | integer (value : Int)
  | real (value : Binary64)
deriving BEq, Repr, Inhabited

/-- A JSON value. The members of an object are in the order in which they are written. -/
inductive Json where
  | null
  | bool (value : Bool)
  | number (value : JsonNumber)
  | string (value : String)
  | array (items : List Json)
  | object (members : List (String × Json))
deriving BEq, Repr, Inhabited

namespace JsonNumber

/-- Reals below `1e-5` or from `1e16` on are written with an exponent. -/
def layout : DecimalLayout := ⟨-5, 15⟩

/-- The text of a number: integers in digits, other numbers as their shortest decimal. -/
def text : JsonNumber → List Char
  | .integer value => intText value
  | .real value => value.text layout

/-- The nearest binary64 number. An integer of at most 64 bits always has one. -/
def toBinary64 : JsonNumber → Binary64
  | .integer value => ((Binary64.ofNat? value.natAbs).getD .zero).withSign (value < 0)
  | .real value => value

end JsonNumber

namespace Json

/-- A natural as an integer number. -/
def ofNat (n : Nat) : Json := .number (.integer n)

/-- A string, or null for nothing. -/
def ofOption : Option String → Json
  | none => .null
  | some value => .string value

/-- A number, or null where there is no bound. -/
def ofBound : Option JsonNumber → Json
  | none => .null
  | some value => .number value

/-- An array of strings. -/
def ofStrings (values : List String) : Json := .array (values.map .string)

def isNull : Json → Bool
  | .null => true
  | _ => false

mutual

/-- The value with the members of every object in ascending order of their names; of
several members with one name the last is kept. -/
def sorted : Json → Json
  | .array items => .array (sortedItems items)
  | .object members => .object (ascendingByKey (sortedMembers members))
  | value => value

def sortedItems : List Json → List Json
  | [] => []
  | item :: rest => sorted item :: sortedItems rest

def sortedMembers : List (String × Json) → List (String × Json)
  | [] => []
  | (name, value) :: rest => (name, sorted value) :: sortedMembers rest

end

/-- The value of the first member called `name`, if the value is an object with one. -/
def member? (name : String) : Json → Option Json
  | .object members => members.lookup name
  | _ => none

end Json

end CollectionSchema
