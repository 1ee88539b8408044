import CollectionSchema.Files.Path

/-!
# Storage

What a run may do to files: read them, see whether they are there, and change them in small
steps. One file may be open meanwhile, to be written to at its end. A run works in any monad
that offers this; a step that fails says why.
-/

namespace CollectionSchema

/-- Why a step fails. -/
inductive IoFailure where
  /-- a name on the way does not exist -/
  | notFound
  /-- a directory is where a file should be -/
  | isADirectory
  /-- a file is where a directory should be -/
  | notADirectory
  /-- the name is taken -/
  | alreadyExists
  /-- the content is not text -/
  | invalidData
  /-- a directory in use cannot be replaced -/
  | resourceBusy
  /-- a name is too long -/
  | invalidFilename
  /-- no path holds such a character -/
  | invalidInput
  /-- any other reason -/
  | other
deriving DecidableEq, Repr

namespace IoFailure

/-- The name of a reason. -/
def name : IoFailure → String
  | notFound => "NotFound"
  | isADirectory => "IsADirectory"
  | notADirectory => "NotADirectory"
  | alreadyExists => "AlreadyExists"
  | invalidData => "InvalidData"
  | resourceBusy => "ResourceBusy"
  | invalidFilename => "InvalidFilename"
  | invalidInput => "InvalidInput"
  | other => "Other"

def message : IoFailure → String
  | notFound => "no such file or directory"
  | isADirectory => "is a directory"
  | notADirectory => "not a directory"
  | alreadyExists => "file exists"
  | invalidData => "stream did not contain valid UTF-8"
  | resourceBusy => "device or resource busy"
  | invalidFilename => "file name too long"
  | invalidInput => "file name contained an unexpected NUL byte"
  | other => "input or output error"

end IoFailure

/-- The content of a file. -/
abbrev Bytes := List UInt8

namespace Bytes

/-- The bytes of a text. -/
def ofText (text : String) : Bytes := text.toUTF8.data.toList

/-- The text that bytes stand for, if they stand for one. -/
def text? (bytes : Bytes) : Option String := String.fromUTF8? ⟨bytes.toArray⟩

end Bytes

/-- A step that changes files. -/
inductive Step where
  /-- makes a directory and all that it lies in, as far as they are not there -/
  | createDirectories (path : Path)
  /-- makes an empty file, or empties one -/
  | createEmpty (file : Path)
  /-- writes to the end of a file that is there -/
  | write (file : Path) (data : Bytes)
  /-- makes sure that the content of a file lasts -/
  | sync (file : Path)
  /-- gives a file another name, in place of a file that has it -/
  | rename (source target : Path)
  /-- makes sure that the names in a directory last -/
  | syncDirectory (directory : Path)
  /-- opens a file, which is made if it is not there, in place of the one that is open -/
  | openFile (file : Path)
  /-- writes to the end of the open file -/
  | append (data : Bytes)
deriving DecidableEq, Repr

/-- A monad with access to files. -/
class Storage (m : Type → Type) where
  /-- the content of a file -/
  read : Path → ExceptT IoFailure m Bytes
  /-- whether a path leads to something -/
  isPresent : Path → m Bool
  /-- one step -/
  perform : Step → ExceptT IoFailure m Unit

namespace Storage

variable {m : Type → Type} [Monad m] [Storage m]

/-- The text of a file. -/
def readText (file : Path) : ExceptT IoFailure m String := do
  match (← read file : Bytes).text? with
  | some text => return text
  | none => throw .invalidData

end Storage

end CollectionSchema
