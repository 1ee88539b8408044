import CollectionSchema.Ascending
import CollectionSchema.Declaration.Graph
import CollectionSchema.Schema.Keywords

/-!
# The constraint registry

The constraints and exemptions that the annotations of a graph state, by record and field. A
field has at most one constraint, stated by at most one annotation.
-/

namespace CollectionSchema

/-- A field of a record. Keys are ordered by record, then by field. -/
structure FieldKey where
  record : String
  field : String
deriving DecidableEq, Repr, Inhabited

namespace FieldKey

instance : LT FieldKey where
  lt a b := a.record < b.record ∨ a.record = b.record ∧ a.field < b.field

instance : DecidableLT FieldKey := fun a b =>
  inferInstanceAs (Decidable (a.record < b.record ∨ a.record = b.record ∧ a.field < b.field))

/-- The text of a key. Different keys can have the same text. -/
def display (key : FieldKey) : String := key.record ++ "#" ++ key.field

end FieldKey

/-- Why an annotation of a field is refused. -/
inductive AnnotationFault where
  /-- the field has a constraint annotation already -/
  | conflict (previous : AnnotationKind)
  | argument (cause : ConstraintError)
deriving Repr

def AnnotationFault.message : AnnotationFault → String
  | conflict previous => "conflicts with " ++ previous.name
  | argument cause => cause.message

/-- An annotation that is refused, and where it stands. -/
structure AnnotationError where
  key : FieldKey
  kind : AnnotationKind
  fault : AnnotationFault
deriving Repr

def AnnotationError.message (e : AnnotationError) : String :=
  "annotation inconsistency at " ++ e.key.display ++ ": " ++ e.kind.name ++ " " ++
    e.fault.message

namespace Annotation

/-- Whether an annotation marks its property as exempt from the default constraint. -/
def isExemption (a : Annotation) : Bool := a.kind? == some .exemption

/-- The kind of an annotation that states a constraint. -/
def constraintKind? (a : Annotation) : Option AnnotationKind :=
  a.kind?.filter (·.isConstraint)

/-- The constraint that the annotations of a field state, where `previous` is one that was
found before them. Annotations of unknown kinds are ignored. -/
def collect (key : FieldKey) (previous : Option (AnnotationKind × Keywords)) :
    List Annotation → Except AnnotationError (Option (AnnotationKind × Keywords))
  | [] => .ok previous
  | a :: rest =>
    match a.constraintKind?, previous with
    | none, _ => collect key previous rest
    | some kind, some (first, _) => .error ⟨key, kind, .conflict first⟩
    | some kind, none =>
      match a.constraint with
      | .error cause => .error ⟨key, kind, .argument cause⟩
      | .ok constraint => collect key (some (kind, .ofConstraint constraint)) rest

end Annotation

namespace Property

/-- The keywords that the annotations of a property state. -/
def keywords? (record : String) (p : Property) : Except AnnotationError (Option Keywords) := do
  return (← Annotation.collect ⟨record, p.name⟩ none p.annotations).map (·.2)

/-- Whether a property is exempt from the default constraint. -/
def isExempt (p : Property) : Bool := p.annotations.any (·.isExemption)

end Property

/-- The constraints by field, ascending, and the exempt fields, ascending. -/
structure Registry where
  constraints : List (FieldKey × Keywords)
  exemptions : List FieldKey
deriving BEq, Repr, Inhabited

namespace Registry

def empty : Registry := ⟨[], []⟩

/-- The registry with what the annotations of one property state. -/
def addProperty (record : String) (registry : Registry) (p : Property) :
    Except AnnotationError Registry := do
  let key : FieldKey := ⟨record, p.name⟩
  let stated ← p.keywords? record
  return {
    constraints := match stated with
      | none => registry.constraints
      | some keywords => putAscending key keywords registry.constraints
    exemptions :=
      if p.isExempt then insertAscending key registry.exemptions else registry.exemptions }

/-- The registry with what the annotations of one record state. -/
def addRecord (registry : Registry) (r : Record) : Except AnnotationError Registry :=
  r.properties.foldlM (addProperty r.name) registry

/-- The registry of a graph, or the first annotation that is refused. -/
def collect (g : Graph) : Except AnnotationError Registry := g.records.foldlM addRecord empty

/-- The constraint of a field. -/
def keywords? (registry : Registry) (key : FieldKey) : Option Keywords :=
  registry.constraints.lookup key

/-- Whether a field is exempt from the default constraint. -/
def isExempt (registry : Registry) (key : FieldKey) : Bool := registry.exemptions.contains key

/-- The registry as a JSON value. Members of the constraints are called by the text of their
field. -/
def toJson (registry : Registry) : Json :=
  .object [
    ("constraints",
      .object (registry.constraints.map fun entry => (entry.1.display, entry.2.toJson))),
    ("exemptions", .ofStrings (registry.exemptions.map (·.display)))]

end Registry

end CollectionSchema
