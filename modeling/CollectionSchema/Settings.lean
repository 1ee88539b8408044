import CollectionSchema.Artifact.Layout
import CollectionSchema.Files.Storage
import CollectionSchema.Json.Basic
import CollectionSchema.Toml.Document

/-!
# Settings

What a run can be told in a settings file: where the artifacts go, how documents are called,
and whether a record that is put off fails the run. Every setting has a default, and a file
may hold nothing but settings.
-/

namespace CollectionSchema

structure Settings where
  layout : Layout
  documentSuffix : String
  strict : Bool
deriving DecidableEq, Repr

/-- Why there are no settings. -/
inductive SettingsError where
  | read (path : Path) (cause : IoFailure)
  | decode (path : Path)
  | separatorInSuffix (suffix : String)
  | noAggregateName (path : Path)
deriving DecidableEq, Repr

def SettingsError.message : SettingsError → String
  | read path cause => "failed to read " ++ path.text ++ ": " ++ cause.message
  | decode path => "toml decode error in " ++ path.text
  | separatorInSuffix suffix =>
    "invalid settings: document_suffix must not contain path separators: " ++ suffix
  | noAggregateName path =>
    "invalid settings: aggregate_file has no file name: " ++ path.text

namespace Settings

/-- The settings when nothing is said. -/
def default : Settings := ⟨Layout.ofDirectory ⟨"generated"⟩, "Schema", false⟩

/-- The file that is read when none is named, if it is there. -/
def defaultFile : Path := ⟨"mongoschema.toml"⟩

/-- The settings with one more entry of a file; nothing if there is no such setting or it
has no such value. -/
def withEntry? (s : Settings) : String × Toml.Value → Option Settings
  | ("out_dir", .string text) => some { s with layout := { s.layout with outDir := ⟨text⟩ } }
  | ("schema_dir", .string text) =>
    some { s with layout := { s.layout with schemaDir := ⟨text⟩ } }
  | ("document_suffix", .string text) => some { s with documentSuffix := text }
  | ("aggregate_file", .string text) =>
    some { s with layout := { s.layout with aggregateFile := ⟨text⟩ } }
  | ("strict", .bool value) => some { s with strict := value }
  | _ => none

/-- The settings that a text holds. -/
def ofText? (text : String) : Option Settings := do
  (← Toml.parse? text).foldlM withEntry? default

/-- A character that separates the names of a path, on some system. -/
def isSeparator (c : Char) : Bool := c == '/' || c == '\\'

/-- Checks settings: a suffix is part of a name, and the table needs a name. -/
def check (s : Settings) : Except SettingsError Settings :=
  if s.documentSuffix.toList.any isSeparator then .error (.separatorInSuffix s.documentSuffix)
  else if s.layout.aggregateFile.fileName?.isNone then
    .error (.noAggregateName s.layout.aggregateFile)
  else .ok s

/-- The checked settings of the text of a file. -/
def ofFileText (path : Path) (text : String) : Except SettingsError Settings :=
  match ofText? text with
  | some s => s.check
  | none => .error (.decode path)

/-- The settings with what the command line says: strictness can be switched on only. -/
def override (s : Settings) (outDir : Option Path) (strict : Bool) : Settings :=
  { s with
    layout := { s.layout with outDir := outDir.getD s.layout.outDir }
    strict := s.strict || strict }

/-- The settings as a JSON value. -/
def toJson (s : Settings) : Json :=
  .object [
    ("out_dir", .string s.layout.outDir.text),
    ("schema_dir", .string s.layout.schemaDir.text),
    ("document_suffix", .string s.documentSuffix),
    ("aggregate_file", .string s.layout.aggregateFile.text),
    ("strict", .bool s.strict)]

section Load

variable {m : Type → Type} [Monad m] [Storage m]

/-- Reads the settings of a file. -/
def readFile (path : Path) : ExceptT SettingsError m Settings := do
  let text ← (Storage.readText path : ExceptT IoFailure m String).adapt (.read path)
  ExceptT.mk (pure (ofFileText path text))

/-- Reads the settings of the file that is named, or else of the default file if it is
there. -/
def load : Option Path → ExceptT SettingsError m Settings
  | some path => readFile path
  | none => do
    if ← (Storage.isPresent defaultFile : m Bool) then readFile defaultFile else return default

end Load

end Settings

end CollectionSchema
