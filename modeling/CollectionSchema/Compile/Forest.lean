import CollectionSchema.Compile.Builder
import CollectionSchema.Declaration.WellFormed
import CollectionSchema.Text.Blank

/-!
# Compiling graphs

Compiling a graph gives the schemas of its roots. A root that is pending, or that refers to
a name nobody declares, is put off; every other root must have the name of a collection and
a node. The first root at fault, in declaration order, stops the run.
-/

namespace CollectionSchema

/-- The schema of a root. -/
structure CompiledSchema where
  record : String
  simpleName : String
  collection : String
  node : Node
deriving BEq, Repr

/-- Why a root is put off. -/
inductive DeferralReason where
  | pending
  /-- the first property whose type names no declaration -/
  | unresolvedReference (field typeName : String)
deriving DecidableEq, Repr

def DeferralReason.display : DeferralReason → String
  | pending => "pending in provider"
  | unresolvedReference field typeName =>
    "field " ++ field ++ " references unresolved " ++ typeName

/-- A root that is put off. -/
structure DeferredRecord where
  record : String
  reason : DeferralReason
deriving DecidableEq, Repr

/-- A deferred root as a JSON value. -/
def DeferredRecord.toJson (d : DeferredRecord) : Json :=
  .object <| ("record", .string d.record) :: match d.reason with
  | .pending => [("reason", .string "pending")]
  | .unresolvedReference field typeName =>
    [("reason", .string "unresolved_reference"), ("field", .string field),
      ("type_name", .string typeName)]

/-- Why a graph does not compile. -/
inductive CompileError where
  | declarations (cause : DeclarationError)
  | inconsistency (cause : AnnotationError)
  | missingCollection (record : String)
  | build (cause : BuildError)
deriving Repr

def CompileError.message : CompileError → String
  | declarations cause => cause.message
  | inconsistency cause => cause.message
  | missingCollection record =>
    "missing required metadata: schema-rooted record " ++ record ++ " has no collection name"
  | build cause => cause.message

/-- What becomes of a root. -/
inductive Settled where
  | compiled (schema : CompiledSchema)
  | deferred (record : DeferredRecord)
deriving Repr

def Settled.schema? : Settled → Option CompiledSchema
  | compiled schema => some schema
  | deferred _ => none

def Settled.deferred? : Settled → Option DeferredRecord
  | compiled _ => none
  | deferred record => some record

/-- The result of compiling a graph: the schemas and the deferred roots, each in declaration
order, and the registry. -/
structure Compiled where
  forest : List CompiledSchema
  deferred : List DeferredRecord
  registry : Registry
deriving Repr

namespace Graph

/-- The name that a property refers to and that nobody declares. -/
def unresolvedName? (g : Graph) (p : Property) : Option String :=
  p.type.declaration?.filter (!g.declares ·)

/-- The reason for which a root is put off, if there is one. -/
def deferral? (g : Graph) (r : Record) : Option DeferralReason :=
  if g.isPending r.name then some .pending
  else r.properties.findSome? fun p =>
    (g.unresolvedName? p).map (.unresolvedReference p.name)

/-- The name of the collection of a root, if it is known and not blank. -/
def collection? (r : Record) : Option String :=
  (r.root.bind (·.collection)).filter (!Text.isAllBlank ·.toList)

/-- What becomes of a root. -/
def settle (g : Graph) (registry : Registry) (r : Record) : Except CompileError Settled :=
  match g.deferral? r with
  | some reason => .ok (.deferred ⟨r.name, reason⟩)
  | none =>
    match collection? r with
    | none => .error (.missingCollection r.name)
    | some collection =>
      match g.build registry r with
      | .ok node => .ok (.compiled ⟨r.name, r.simpleName, collection, node⟩)
      | .error cause => .error (.build cause)

/-- The well-formed graph's registry. -/
def prepare (g : Graph) : Except CompileError Registry := do
  g.check.mapError .declarations
  (Registry.collect g).mapError .inconsistency

/-- Compiles a graph. -/
def compile (g : Graph) : Except CompileError Compiled := do
  let registry ← g.prepare
  let settled ← g.roots.mapM (g.settle registry)
  return ⟨settled.filterMap (·.schema?), settled.filterMap (·.deferred?), registry⟩

end Graph

end CollectionSchema
