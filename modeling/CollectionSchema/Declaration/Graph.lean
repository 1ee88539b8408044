import CollectionSchema.Declaration.Annotation
import CollectionSchema.Declaration.TypeRef

/-!
# Declaration graphs

Records with typed properties, enumerations, and the names of records that are not complete
yet. Of several declarations with one name, a look-up finds the first.
-/

namespace CollectionSchema

/-- A property of a record. -/
structure Property where
  name : String
  type : TypeRef
  nullable : Bool
  annotations : List Annotation
deriving Repr, Inhabited

/-- The mark of a record that is the root of a stored collection. The name of the collection
may be unknown. -/
structure SchemaRoot where
  collection : Option String
deriving DecidableEq, Repr, Inhabited

/-- A record with its properties in declaration order. -/
structure Record where
  name : String
  root : Option SchemaRoot
  properties : List Property
deriving Repr, Inhabited

/-- An enumeration with its values in declaration order. -/
structure Enumeration where
  name : String
  values : List String
deriving DecidableEq, Repr, Inhabited

/-- All declarations, in declaration order. -/
structure Graph where
  records : List Record
  enums : List Enumeration
  pending : List String
deriving Repr, Inhabited

namespace Record

def isRoot (r : Record) : Bool := r.root.isSome

/-- The segments of a name end at these characters. -/
def isSeparator (c : Char) : Bool := c == '.' || c == ':'

/-- The last segment of the name that is not empty; a name of separators only is its own
simple name. -/
def simpleName (r : Record) : String :=
  let reversed := r.name.toList.reverse.dropWhile isSeparator
  if reversed.isEmpty then r.name
  else String.ofList (reversed.takeWhile (!isSeparator ·)).reverse

end Record

namespace Graph

/-- The first record with a name. -/
def record? (g : Graph) (name : String) : Option Record := g.records.find? (·.name == name)

/-- The first enumeration with a name. -/
def enum? (g : Graph) (name : String) : Option Enumeration := g.enums.find? (·.name == name)

/-- Whether a name is that of a record or of an enumeration. -/
def declares (g : Graph) (name : String) : Bool :=
  (g.record? name).isSome || (g.enum? name).isSome

def isPending (g : Graph) (name : String) : Bool := g.pending.contains name

/-- The records that are roots, in declaration order. -/
def roots (g : Graph) : List Record := g.records.filter (·.isRoot)

/-- The graph with more records marked as pending. -/
def withPending (g : Graph) (names : List String) : Graph :=
  { g with pending := g.pending ++ names }

theorem name_of_record? {g : Graph} {name : String} {r : Record} (h : g.record? name = some r) :
    r.name = name := by
  simpa using List.find?_some h

theorem mem_of_record? {g : Graph} {name : String} {r : Record} (h : g.record? name = some r) :
    r ∈ g.records :=
  List.mem_of_find?_eq_some h

end Graph

end CollectionSchema
