import CollectionSchema.Artifact.Emit
import CollectionSchema.Artifact.Layout
import CollectionSchema.Files.Atomic
import CollectionSchema.Log.Event

/-!
# Writing artifacts

The documents are written in order and the table after them, each file atomically. The first
file that cannot be written ends this; what was written before stays.
-/

namespace CollectionSchema

/-- The paths of what was written. -/
structure WrittenArtifacts where
  documents : List Path
  aggregate : Option Path
deriving DecidableEq, Repr

namespace Artifacts

variable {m : Type → Type} [Monad m] [Storage m]

/-- Writes a file and notes it. -/
def writeFile (note : Event → m Unit) (event : Event) (path : Path) (text : String) :
    ExceptT WriteError m Path := do
  Storage.writeAtomically path (.ofText text)
  note event
  return path

/-- Writes artifacts into a layout. -/
def write (artifacts : Artifacts) (layout : Layout) (note : Event → m Unit) :
    ExceptT WriteError m WrittenArtifacts := do
  let documents ← artifacts.documents.mapM fun doc =>
    writeFile note .documentWritten (layout.documentPath doc.fileName) doc.text
  match artifacts.table with
  | none => return ⟨documents, none⟩
  | some table =>
    let aggregate ← writeFile note .aggregateWritten layout.aggregatePath table.sourceText
    return ⟨documents, some aggregate⟩

end Artifacts

end CollectionSchema
