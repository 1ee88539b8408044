import CollectionSchema.Schema.Node
import CollectionSchema.Schema.Registry

/-!
# Building nodes

The node of a record holds the nodes of its properties. Where a property is a record, or a
list of one, the node of that record is built in its place. The path holds the records that
are being built, outermost first: a record on the path is not built again inside itself, so
every step into a record takes a declared name off those that are not on the path.
-/

namespace CollectionSchema

/-- Why a record has no node. -/
inductive BuildError where
  /-- a property refers to a name that is not declared as the kind it is used as -/
  | unresolved (key : FieldKey) (name : String)
  /-- a record lies inside itself; the path ends with its second occurrence -/
  | cyclic (key : FieldKey) (path : List String)
deriving DecidableEq, Repr

def BuildError.message : BuildError → String
  | unresolved key name => "unresolved type at " ++ key.display ++ ": " ++ name
  | cyclic key path =>
    "cyclic record nesting at " ++ key.display ++ ": " ++ " -> ".intercalate path

namespace Graph

/-- The declared records whose names are not on a path. -/
def offPath (g : Graph) (path : List String) : List Record :=
  g.records.filter fun r => !path.contains r.name

/-- Entering a declared record that is not on the path leaves fewer records off it. -/
theorem length_offPath_lt {g : Graph} {path : List String} {name : String} {r : Record}
    (hr : g.record? name = some r) (hname : path.contains name = false) :
    (g.offPath (path ++ [name])).length < (g.offPath path).length := by
  have hsplit : g.offPath (path ++ [name]) =
      (g.offPath path).filter fun r => !(r.name == name) := by
    simp only [offPath, List.filter_filter]
    congr 1
    funext r
    by_cases h : r.name = name <;> simp [h]
  have hmem : r ∈ g.offPath path := by
    refine List.mem_filter.2 ⟨g.mem_of_record? hr, ?_⟩
    simpa [g.name_of_record? hr] using hname
  rw [hsplit]
  refine Nat.lt_of_le_of_ne (List.length_filter_le ..) fun heq => ?_
  have := List.length_filter_eq_length_iff.1 heq r hmem
  simp [g.name_of_record? hr] at this

end Graph

namespace Builder

/-- The keywords of a field: those that its annotations state, else the default ones of its
type unless the field is exempt or an enumeration. -/
def keywords (registry : Registry) (key : FieldKey) (type : TypeRef) : Keywords :=
  match registry.keywords? key, type with
  | some stated, _ => stated
  | none, .enumeration _ => {}
  | none, type =>
    if registry.isExempt key then {} else (Keywords.default? key.field type.tag).getD {}

/-- The values of an enumeration, and null if the field is nullable. -/
def enumValues (e : Enumeration) (nullable : Bool) : List (Option String) :=
  e.values.map some ++ if nullable then [none] else []

/-- The node of the elements of a list, where `nested` builds records. Elements have a type
only: no constraints, no values, and no elements of their own. -/
def elements (g : Graph) (nested : String → Except BuildError Node) (key : FieldKey) :
    TypeRef → Except BuildError Node
  | .record name => nested name
  | .enumeration name =>
    match g.enum? name with
    | some _ => .ok (.ofType ⟨.string, false⟩)
    | none => .error (.unresolved key name)
  | type => .ok (.ofType ⟨type.tag, false⟩)

/-- The node of a property, where `nested` builds records. -/
def property (g : Graph) (registry : Registry) (nested : String → Except BuildError Node)
    (key : FieldKey) (p : Property) : Except BuildError Node :=
  let leaf : Node :=
    { type := ⟨p.type.tag, p.nullable⟩, keywords := keywords registry key p.type }
  match p.type with
  | .record name => nested name
  | .enumeration name =>
    match g.enum? name with
    | some e => .ok { leaf with enumValues := some (enumValues e p.nullable) }
    | none => .error (.unresolved key name)
  | .list element => return { leaf with items := some (← elements g nested key element) }
  | .primitive _ => .ok leaf

/-- The names of the properties that must be present. -/
def required (r : Record) : List String :=
  (r.properties.filter (!·.nullable)).map (·.name)

/-- The node of a record that is entered from `path`. -/
def buildFrom (g : Graph) (registry : Registry) (path : List String) (r : Record) :
    Except BuildError Node := do
  let inside := path ++ [r.name]
  let nodes ← r.properties.mapM fun p => do
    let key : FieldKey := ⟨r.name, p.name⟩
    let nested (name : String) : Except BuildError Node :=
      match _hr : g.record? name with
      | none => .error (.unresolved key name)
      | some r' =>
        if _hp : inside.contains name then .error (.cyclic key (inside ++ [name]))
        else buildFrom g registry inside r'
    return (p.name, ← property g registry nested key p)
  return .object (required r) (.ofList nodes)
termination_by (g.offPath (path ++ [r.name])).length
decreasing_by
  rw [g.name_of_record? _hr]
  exact g.length_offPath_lt _hr (Bool.eq_false_iff.2 _hp)

end Builder

/-- The node of a record. -/
def Graph.build (g : Graph) (registry : Registry) (r : Record) : Except BuildError Node :=
  Builder.buildFrom g registry [] r

end CollectionSchema
