import CollectionSchema.Descriptor.Check
import CollectionSchema.Files.Storage
import CollectionSchema.Json.Reader
import CollectionSchema.Toml.Document

/-!
# Descriptor files

A descriptor file holds a descriptor as JSON or as TOML; the extension of its name tells
which. Both are read into a JSON value, so that one check serves both.
-/

namespace CollectionSchema

inductive DescriptorFormat where
  | json
  | toml
deriving DecidableEq, Repr

/-- Why a file gives no descriptor. -/
inductive DescriptorError where
  | io (cause : IoFailure)
  | json (cause : Json.Fault)
  | toml
  | unsupportedFormat (path : Path)
  | invalid (report : Report)
deriving Repr

def DescriptorError.message : DescriptorError → String
  | io cause => "io error: " ++ cause.message
  | json .cutOff => "json error: unexpected end of input"
  | json .malformed => "json error: syntax error"
  | toml => "toml error: syntax error"
  | unsupportedFormat path => "unsupported descriptor format: " ++ path.text
  | invalid report => "invalid descriptor: " ++ report.message

namespace DescriptorFormat

/-- The format that the extension of a path stands for, in capital or small letters. -/
def ofPath? (p : Path) : Option DescriptorFormat :=
  match p.extension?.map String.toLower with
  | some "json" => some .json
  | some "toml" => some .toml
  | _ => none

/-- The value of a text. -/
def parse (format : DescriptorFormat) (text : String) : Except DescriptorError Json :=
  match format with
  | .json => (Json.parse text).mapError .json
  | .toml =>
    match Toml.parseJson? text with
    | some value => .ok value
    | none => .error .toml

end DescriptorFormat

/-- The descriptor of a text. -/
def Descriptor.ofText (format : DescriptorFormat) (text : String) :
    Except DescriptorError ValidDescriptor := do
  (Descriptor.validate (← format.parse text)).mapError .invalid

/-- A file that a descriptor is read from. -/
structure DescriptorFile where
  path : Path
  format : DescriptorFormat
deriving DecidableEq, Repr

namespace DescriptorFile

/-- The descriptor file at a path. -/
def ofPath (p : Path) : Except DescriptorError DescriptorFile :=
  match DescriptorFormat.ofPath? p with
  | some format => .ok ⟨p, format⟩
  | none => .error (.unsupportedFormat p)

/-- Reads the descriptor. -/
def load {m : Type → Type} [Monad m] [Storage m] (file : DescriptorFile) :
    ExceptT DescriptorError m ValidDescriptor := do
  let text ← (Storage.readText file.path : ExceptT IoFailure m String).adapt .io
  ExceptT.mk (pure (Descriptor.ofText file.format text))

end DescriptorFile

end CollectionSchema
