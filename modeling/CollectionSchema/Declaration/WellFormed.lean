import CollectionSchema.Declaration.Graph

/-!
# Well-formed graphs

A graph is well formed if no name is declared twice, no record has two properties of one
name, and every enumeration has values, all different. `Graph.check` decides this and
reports the first fault in declaration order, records before enumerations.
-/

namespace CollectionSchema

/-- A fault in the declarations. -/
inductive DeclarationError where
  | duplicateRecord (name : String)
  | duplicateProperty (record property : String)
  | duplicateEnum (name : String)
  | recordAndEnum (name : String)
  | emptyEnum (name : String)
  | duplicateValue (enum value : String)
deriving DecidableEq, Repr

def DeclarationError.message (e : DeclarationError) : String :=
  "invalid declarations: " ++ match e with
  | duplicateRecord name => "duplicate record name: " ++ name
  | duplicateProperty record property =>
    "duplicate property name: " ++ record ++ "#" ++ property
  | duplicateEnum name => "duplicate enum name: " ++ name
  | recordAndEnum name => "name declared as both record and enum: " ++ name
  | emptyEnum name => "enum has no values: " ++ name
  | duplicateValue enum value => "duplicate enum value: " ++ enum ++ "." ++ value

/-- The first name that stands in `seen` or earlier in the list. -/
def firstRepeat (seen : List String) : List String → Option String
  | [] => none
  | name :: rest => if name ∈ seen then some name else firstRepeat (name :: seen) rest

namespace Graph

/-- Checks records, where `seen` are the names of earlier ones. -/
def checkRecords (seen : List String) : List Record → Except DeclarationError Unit
  | [] => .ok ()
  | r :: rest =>
    if r.name ∈ seen then .error (.duplicateRecord r.name)
    else match firstRepeat [] (r.properties.map (·.name)) with
      | some property => .error (.duplicateProperty r.name property)
      | none => checkRecords (r.name :: seen) rest

/-- Checks enumerations, where `seen` are the names of earlier ones and `records` those of
all records. -/
def checkEnums (records seen : List String) : List Enumeration → Except DeclarationError Unit
  | [] => .ok ()
  | e :: rest =>
    if e.name ∈ seen then .error (.duplicateEnum e.name)
    else if e.name ∈ records then .error (.recordAndEnum e.name)
    else if e.values.isEmpty then .error (.emptyEnum e.name)
    else match firstRepeat [] e.values with
      | some value => .error (.duplicateValue e.name value)
      | none => checkEnums records (e.name :: seen) rest

/-- Checks that the graph is well formed. -/
def check (g : Graph) : Except DeclarationError Unit := do
  checkRecords [] g.records
  checkEnums (g.records.map (·.name)) [] g.enums

end Graph

end CollectionSchema
