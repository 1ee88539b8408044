import CollectionSchema.Toml.DateTime

/-!
# TOML values

The entries of a table are in the order in which they were added.
-/

namespace CollectionSchema.Toml

/-- A TOML value. A real number that is infinite or not a number is nothing. -/
inductive Value where
  | string (value : String)
  | integer (value : Int)
  | real (value : Option Binary64)
  | bool (value : Bool)
  | dateTime (value : DateTime)
  | array (items : List Value)
  | table (entries : List (String × Value))
deriving BEq, Repr, Inhabited

namespace Value

/-- The date-time that a table stands for, if its first entry has the reserved name. -/
def marked? : List (String × Value) → Option (Option DateTime)
  | (name, value) :: _ =>
    if name = DateTime.marker then
      match value with
      | .string text => some (DateTime.ofText? text)
      | _ => some none
    else none
  | [] => none

mutual

/-- The value as a JSON value; nothing if a table with the reserved name holds no
date-time. -/
def toJson? : Value → Option Json
  | .string value => some (.string value)
  | .integer value => some (.number (.integer value))
  | .real none => some .null
  | .real (some value) => some (.number (.real value))
  | .bool value => some (.bool value)
  | .dateTime value => some value.toJson
  | .array items => (itemsJson? items).map .array
  | .table entries =>
    match marked? entries with
    | some found => found.map DateTime.toJson
    | none => (membersJson? entries).map fun members => .object (ascendingByKey members)

def itemsJson? : List Value → Option (List Json)
  | [] => some []
  | item :: rest => return (← toJson? item) :: (← itemsJson? rest)

def membersJson? : List (String × Value) → Option (List (String × Json))
  | [] => some []
  | (name, value) :: rest => return (name, ← toJson? value) :: (← membersJson? rest)

end

end Value

end CollectionSchema.Toml
