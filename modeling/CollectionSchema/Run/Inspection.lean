import CollectionSchema.Nesting.Report
import CollectionSchema.Run.Failure

/-!
# Inspecting descriptors

The roots of a descriptor, the nesting of its records and its constraints, as one JSON
value.
-/

namespace CollectionSchema.Inspection

/-- A root of a graph as a JSON value. -/
def rootJson (g : Graph) (r : Record) : Json :=
  .object [
    ("record", .string r.name),
    ("collection", .ofOption (r.root.bind (·.collection))),
    ("pending", .bool (g.isPending r.name))]

/-- What there is to see in a graph, under the name of its source. -/
def ofGraph (g : Graph) (source : Path) : Except Failure Json := do
  g.check.mapError .declarations
  let registry ← (Registry.collect g).mapError fun cause => .compile (.inconsistency cause)
  return .object [
    ("source", .string source.text),
    ("schema_roots", .array (g.roots.map (rootJson g))),
    ("nesting", g.nestingReport.toJson),
    ("registry", registry.toJson)]

/-- Reads a descriptor and tells what there is to see in it. -/
def ofFile {m : Type → Type} [Monad m] [Storage m] (descriptor : Path) :
    ExceptT Failure m Json := do
  let file ← ExceptT.mk (pure ((DescriptorFile.ofPath descriptor).mapError .descriptor))
  let valid ← file.load.adapt .descriptor
  ExceptT.mk (pure (ofGraph valid.graph descriptor))

end CollectionSchema.Inspection
