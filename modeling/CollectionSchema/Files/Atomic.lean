import CollectionSchema.Files.Storage

/-!
# Atomic writes

A file is written under another name in the same directory and then renamed, so that at any
time it holds its old content or all of the new one.
-/

namespace CollectionSchema

/-- Why a file is not written. -/
inductive WriteError where
  | io (cause : IoFailure)
  /-- the path leads to no name -/
  | invalidPath (path : Path)
deriving DecidableEq, Repr

def WriteError.message : WriteError → String
  | io cause => "io error: " ++ cause.message
  | invalidPath path => "invalid output path: " ++ path.text

namespace Path

/-- The name that a file has while it is written. -/
def temporaryName (name : String) : String := "." ++ name ++ ".tmp"

/-- The path that a file has while it is written. -/
def temporary? (p : Path) : Option Path :=
  p.fileName?.map fun name => p.sibling (temporaryName name)

end Path

namespace AtomicWrite

/-- The steps before a file is written. -/
def prepare (p : Path) : List Step := (p.directory?.map Step.createDirectories).toList

/-- The steps that write a file under the path `temporary` and put it into place. -/
def replace (p temporary : Path) (data : Bytes) : List Step :=
  [.createEmpty temporary, .write temporary data, .sync temporary, .rename temporary p] ++
    (p.directory?.map Step.syncDirectory).toList

end AtomicWrite

namespace Storage

variable {m : Type → Type} [Monad m] [Storage m]

/-- Carries out steps up to the first one that fails. -/
def performAll (steps : List Step) : ExceptT WriteError m Unit :=
  (steps.forM perform).adapt .io

/-- Writes a file atomically. -/
def writeAtomically (p : Path) (data : Bytes) : ExceptT WriteError m Unit := do
  performAll (AtomicWrite.prepare p)
  match p.temporary? with
  | none => throw (.invalidPath p)
  | some temporary => performAll (AtomicWrite.replace p temporary data)

end Storage

end CollectionSchema
