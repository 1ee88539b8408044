import CollectionSchema.Artifact.Table
import CollectionSchema.Compile.Forest
import CollectionSchema.Schema.Document

/-!
# Artifacts

The artifacts of a forest: a document for every schema, and the table of all of them unless
there are none. Collections and file names must be different; the first schema that shares
one with an earlier schema is the one at fault.
-/

namespace CollectionSchema

/-- The document of a schema. -/
structure SchemaDocument where
  record : String
  collection : String
  fileName : String
  text : String
deriving DecidableEq, Repr

/-- Why a forest has no artifacts. -/
inductive EmitError where
  | duplicateCollection (collection first second : String)
  | duplicateDocument (fileName first second : String)
deriving DecidableEq, Repr

def EmitError.message : EmitError → String
  | duplicateCollection collection first second =>
    "collection " ++ collection ++ " is claimed by both " ++ first ++ " and " ++ second
  | duplicateDocument fileName first second =>
    "document " ++ fileName ++ " would be written by both " ++ first ++ " and " ++ second

/-- The record of the schema at fault. -/
def EmitError.second : EmitError → String
  | duplicateCollection _ _ second => second
  | duplicateDocument _ _ second => second

/-- The artifacts of a forest. -/
structure Artifacts where
  documents : List SchemaDocument
  table : Option DocumentTable
deriving DecidableEq, Repr

namespace Artifacts

/-- The document of a schema. -/
def document (suffix : String) (schema : CompiledSchema) : SchemaDocument :=
  ⟨schema.record, schema.collection, Document.fileName schema.simpleName suffix,
    Document.render schema.node⟩

/-- The documents of schemas, where `earlier` are those of the schemas before them. -/
def emitFrom (suffix : String) (earlier : List SchemaDocument) :
    List CompiledSchema → Except EmitError (List SchemaDocument)
  | [] => .ok []
  | schema :: rest =>
    let fileName := Document.fileName schema.simpleName suffix
    match earlier.find? (·.collection == schema.collection) with
    | some first =>
      .error (.duplicateCollection schema.collection first.record schema.record)
    | none =>
      match earlier.find? (·.fileName == fileName) with
      | some first => .error (.duplicateDocument fileName first.record schema.record)
      | none => do
        let doc := document suffix schema
        return doc :: (← emitFrom suffix (earlier ++ [doc]) rest)

/-- The table of documents, if there are any. -/
def tableOf (documents : List SchemaDocument) : Option DocumentTable :=
  if documents.isEmpty then none
  else some ⟨documents.map fun doc => (doc.collection, doc.text)⟩

/-- The artifacts of a forest. -/
def emit (suffix : String) (forest : List CompiledSchema) : Except EmitError Artifacts := do
  let documents ← emitFrom suffix [] forest
  return ⟨documents, tableOf documents⟩

end Artifacts

end CollectionSchema
