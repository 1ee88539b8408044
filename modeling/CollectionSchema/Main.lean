import CollectionSchema.Run.Command

/-!
# The program

The commands on the files of the machine that the program runs on.
-/

namespace CollectionSchema

/-- The reason of a failure of the system. -/
def IoFailure.ofSystem : IO.Error → IoFailure
  | .noFileOrDirectory .. => .notFound
  | .inappropriateType .. => .isADirectory
  | .alreadyExists .. => .alreadyExists
  | .resourceBusy .. => .resourceBusy
  | .invalidArgument .. => .invalidInput
  | _ => .other

/-- Actions on the system, with the file that is open. -/
abbrev Machine := StateT (Option IO.FS.Handle) IO

namespace Machine

/-- An action that may fail. -/
def attempt {α : Type} (action : IO α) : ExceptT IoFailure Machine α :=
  ExceptT.mk do
    match ← action.toBaseIO with
    | .ok result => return .ok result
    | .error failure => return .error (.ofSystem failure)

/-- Whether a path leads to something. -/
def isPresent (path : Path) : IO Bool := do
  match ← (IO.FS.realPath path.text).toBaseIO with
  | .ok _ => return true
  | .error _ => return false

/-- Writes data to an open file. -/
def writeTo (handle : IO.FS.Handle) (data : Bytes) : IO Unit := do
  handle.write ⟨data.toArray⟩
  handle.flush

/-- Writes data to a file that is opened in a way. -/
def writeFile (mode : IO.FS.Mode) (file : Path) (data : Bytes) : IO Unit := do
  writeTo (← IO.FS.Handle.mk file.text mode) data

/-- Carries out a step. The files are written through, so there is nothing to do to make them
last. -/
def perform : Step → ExceptT IoFailure Machine Unit
  | .createDirectories path => attempt (IO.FS.createDirAll path.text)
  | .createEmpty file => attempt (writeFile .write file [])
  | .write file data => attempt (writeFile .append file data)
  | .sync _ => return ()
  | .rename source target => attempt (IO.FS.rename source.text target.text)
  | .syncDirectory _ => return ()
  | .openFile file => do set (some (← attempt (IO.FS.Handle.mk file.text .append)))
  | .append data => do
    match ← get with
    | some handle => attempt (writeTo handle data)
    | none => return ()

instance : Storage Machine where
  read file := attempt do return (← IO.FS.readBinFile file.text).data.toList
  isPresent path := isPresent path
  perform := perform

end Machine

end CollectionSchema

open CollectionSchema in
def main (words : List String) : IO UInt32 := do
  let filter := LogFilter.ofText (← IO.getEnv "MONGOSCHEMA_LOG")
  let outcome ← (Command.runWords filter words : Machine Outcome).run' none
  IO.print outcome.output
  match outcome with
  | .printed _ => return 0
  | .failed cause => IO.eprintln ("Error: " ++ cause.message)
  | .misused cause => IO.eprintln ("error: " ++ cause.message ++ "\n\n" ++ Command.usageText)
  return outcome.exitCode.toUInt32
