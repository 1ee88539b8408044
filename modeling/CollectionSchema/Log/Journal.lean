import CollectionSchema.Files.Storage
import CollectionSchema.Json.Printer
import CollectionSchema.Log.Filter

/-!
# Journals

A journal is the log file of a run: a line of JSON for each event that the filter allows. The
file stays open while the run lasts. A journal without a file takes no notice of events.
-/

namespace CollectionSchema

structure Journal where
  hasFile : Bool
  filter : LogFilter

namespace Journal

/-- The line of an event. -/
def line (event : Event) : String :=
  (Json.object [
    ("level", .string event.level.name),
    ("fields", .object [("event", .string event.name)]),
    ("target", .string event.source)]).compact ++ "\n"

variable {m : Type → Type} [Monad m] [Storage m]

/-- Opens the journal in a file. -/
def create (file : Option Path) (filter : LogFilter) : ExceptT IoFailure m Journal := do
  file.forM fun path => Storage.perform (.openFile path)
  return ⟨file.isSome, filter⟩

/-- Notes an event. An event that cannot be written is lost. -/
def note (journal : Journal) (event : Event) : m Unit :=
  if journal.hasFile && journal.filter.allows event then do
    discard (Storage.perform (m := m) (.append (.ofText (line event)))).run
  else return ()

end Journal

end CollectionSchema
