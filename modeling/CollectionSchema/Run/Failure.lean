import CollectionSchema.Artifact.Emit
import CollectionSchema.Descriptor.File
import CollectionSchema.Files.Atomic
import CollectionSchema.Settings

/-!
# Failures

Why a run ends without doing its job.
-/

namespace CollectionSchema

/-- Why a run fails. -/
inductive Failure where
  | logging (cause : IoFailure)
  | settings (cause : SettingsError)
  | descriptor (cause : DescriptorError)
  /-- the descriptor of a graph that is to be compiled cannot be read -/
  | provider (path : Path) (cause : DescriptorError)
  | declarations (cause : DeclarationError)
  | compile (cause : CompileError)
  | emit (cause : EmitError)
  | write (cause : WriteError)
  /-- records are put off, and the run is strict -/
  | strictDeferred (count : Nat)
deriving Repr

def Failure.message : Failure → String
  | logging cause => "logging error: failed to open log file: " ++ cause.message
  | settings cause => "settings error: " ++ cause.message
  | descriptor cause => "descriptor error: " ++ cause.message
  | provider path cause =>
    "compile error: declaration provider " ++ path.text ++ " failed: " ++ cause.message
  | declarations cause => "declaration error: " ++ cause.message
  | compile cause => "compile error: " ++ cause.message
  | emit cause => "emit error: " ++ cause.message
  | write cause => "emit error: " ++ cause.message
  | strictDeferred count =>
    String.ofList (natText count) ++ " record(s) deferred in strict mode"

end CollectionSchema
