import CollectionSchema.Files.Path

/-!
# Layouts

Where artifacts are written: the table directly in the output directory, and the documents
in a directory of their own there.
-/

namespace CollectionSchema

/-- The output directory, and where the documents and the table lie in it. -/
structure Layout where
  outDir : Path
  schemaDir : Path
  aggregateFile : Path
deriving DecidableEq, Repr

namespace Layout

/-- The usual layout in an output directory. -/
def ofDirectory (outDir : Path) : Layout := ⟨outDir, ⟨"schema"⟩, ⟨"generated_schemas.rs"⟩⟩

/-- The path of the document with a file name. -/
def documentPath (layout : Layout) (fileName : String) : Path :=
  (layout.outDir.join layout.schemaDir).join ⟨fileName⟩

/-- The path of the table. -/
def aggregatePath (layout : Layout) : Path := layout.outDir.join layout.aggregateFile

end Layout

end CollectionSchema
