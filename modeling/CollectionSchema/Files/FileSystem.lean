import CollectionSchema.Ascending
import CollectionSchema.Files.Storage

/-!
# File systems

A file system as a value: what stands at each location, the working directory, and the file
that is open. A location is the list of names from the root. A path leads to a location step
by step; every name on the way but the last must be that of a directory. A file that is open
stays the same file under another name, and is out of reach once another file has its name.
-/

namespace CollectionSchema

/-- What stands at a location. -/
inductive Entry where
  | file (content : Bytes)
  | directory
deriving DecidableEq, Repr

/-- The names from the root to an entry. -/
abbrev Location := List String

/-- The entries by location, ascending, the working directory, and where the open file is.
The root is a directory without an entry of its own. -/
structure FileSystem where
  entries : List (Location × Entry)
  working : Location
  opened : Option Location
deriving DecidableEq, Repr

namespace FileSystem

/-! ## Entries -/

def get? (fs : FileSystem) (location : Location) : Option Entry :=
  if location.isEmpty then some .directory else fs.entries.lookup location

def put (fs : FileSystem) (location : Location) (entry : Entry) : FileSystem :=
  { fs with entries := putAscending location entry fs.entries }

def erase (fs : FileSystem) (location : Location) : FileSystem :=
  { fs with entries := fs.entries.filter (·.1 != location) }

theorem get?_put {fs : FileSystem} {location other : Location} {entry : Entry}
    (h : other ≠ []) :
    (fs.put location entry).get? other =
      if other = location then some entry else fs.get? other := by
  simp [get?, put, h, lookup_putAscending]

theorem get?_erase {fs : FileSystem} {location other : Location} (h : other ≠ []) :
    (fs.erase location).get? other = if other = location then none else fs.get? other := by
  have (entries : List (Location × Entry)) : (entries.filter (·.1 != location)).lookup other =
      if other = location then none else entries.lookup other := by
    induction entries with
    | nil => simp
    | cons entry rest ih => grind
  simp [get?, erase, h, this]

/-- The file system with nothing in it but the working directory. -/
def empty (working : Location) : FileSystem :=
  ⟨(List.range working.length).map fun depth => (working.take (depth + 1), .directory),
    working, none⟩

/-! ## Ways -/

/-- The greatest number of bytes in a name. -/
def maxNameBytes : Nat := 255

/-- The greatest number of bytes in a path. -/
def maxPathBytes : Nat := 4095

/-- The location that names lead to. There need not be anything. -/
def locate (fs : FileSystem) : Location → List String → Except IoFailure Location
  | location, [] => .ok location
  | location, name :: rest =>
    match fs.get? location with
    | none => .error .notFound
    | some (.file _) => .error .notADirectory
    | some .directory =>
      if name = ".." then fs.locate location.dropLast rest
      else if maxNameBytes < name.utf8ByteSize then .error .invalidFilename
      else fs.locate (location ++ [name]) rest

/-- Where the way of a path starts. -/
def start (fs : FileSystem) (p : Path) : Location := if p.isAbsolute then [] else fs.working

/-- The location that a path leads to. -/
def locatePath (fs : FileSystem) (p : Path) : Except IoFailure Location :=
  if p.text.toList.contains '\x00' then .error .invalidInput
  else if maxPathBytes < p.text.utf8ByteSize then .error .invalidFilename
  else if p.text.isEmpty then .error .notFound
  else fs.locate (fs.start p) p.names

/-- What a path leads to. A path that ends like one to a directory leads to no file. -/
def find (fs : FileSystem) (p : Path) : Except IoFailure Entry := do
  match fs.get? (← fs.locatePath p) with
  | none => .error .notFound
  | some .directory => .ok .directory
  | some (.file content) => if p.ending = .name then .ok (.file content) else .error .notADirectory

/-- The location of a file that may be made there. -/
def locateFile (fs : FileSystem) (p : Path) : Except IoFailure Location := do
  let location ← fs.locatePath p
  if fs.get? location = some .directory ∨ p.ending ≠ .name then .error .isADirectory
  else .ok location

/-! ## Directories -/

/-- Whether a path leads to a directory. -/
def isDirectory (fs : FileSystem) (p : Path) : Bool :=
  match fs.find p with
  | .ok entry => entry = .directory
  | .error _ => false

/-- Makes one directory. -/
def makeDirectory (fs : FileSystem) (p : Path) : Except IoFailure FileSystem := do
  let location ← fs.locatePath p
  if (fs.get? location).isSome then .error .alreadyExists
  else .ok (fs.put location .directory)

/-- Makes a directory; that it is there already is no failure. -/
def ensureDirectory (fs : FileSystem) (p : Path) : Except IoFailure FileSystem :=
  match fs.makeDirectory p with
  | .ok fs => .ok fs
  | .error failure => if fs.isDirectory p then .ok fs else .error failure

/-- Makes the first of some directories, each of which lies in the next, and those around it,
outermost first, from the first one that is missing. What was made before a failure stays. -/
def ensureDirectories (fs : FileSystem) : List Path → Except IoFailure Unit × FileSystem
  | [] => (.ok (), fs)
  | p :: outer =>
    match fs.ensureDirectory p with
    | .ok fs => (.ok (), fs)
    | .error .notFound =>
      match fs.ensureDirectories outer with
      | (.error failure, fs) => (.error failure, fs)
      | (.ok _, fs) =>
        match fs.ensureDirectory p with
        | .ok fs => (.ok (), fs)
        | .error failure => (.error failure, fs)
    | .error failure => (.error failure, fs)

/-! ## Files -/

/-- The content of a file. -/
def read (fs : FileSystem) (p : Path) : Except IoFailure Bytes := do
  match ← fs.find p with
  | .file content => .ok content
  | .directory => .error .isADirectory

/-- The content at a location; nothing if there is no file. -/
def contentAt (fs : FileSystem) (location : Location) : Bytes :=
  match fs.get? location with
  | some (.file content) => content
  | _ => []

/-- Makes or empties a file. -/
def createEmpty (fs : FileSystem) (p : Path) : Except IoFailure FileSystem :=
  return fs.put (← fs.locateFile p) (.file [])

/-- Writes to the end of a file, which is made if it is not there. -/
def write (fs : FileSystem) (p : Path) (data : Bytes) : Except IoFailure FileSystem := do
  let location ← fs.locateFile p
  return fs.put location (.file (fs.contentAt location ++ data))

/-- Opens a file, which is made if it is not there. -/
def openFile (fs : FileSystem) (p : Path) : Except IoFailure FileSystem := do
  let location ← fs.locateFile p
  return { fs.put location (.file (fs.contentAt location)) with opened := some location }

/-- Writes to the end of the open file. What is written to a file that is out of reach is
lost. -/
def append (fs : FileSystem) (data : Bytes) : FileSystem :=
  match fs.opened with
  | some location => fs.put location (.file (fs.contentAt location ++ data))
  | none => fs

/-- Writing to the open file changes no other. -/
theorem get?_append {fs : FileSystem} {data : Bytes} {other : Location}
    (h : other ≠ []) (hOther : fs.opened ≠ some other) :
    (fs.append data).get? other = fs.get? other := by
  unfold append
  split
  · rename_i location hOpened
    have : other ≠ location := fun hEq => hOther (hEq ▸ hOpened)
    rw [get?_put h, if_neg this]
  · rfl

/-- Where the open file is when the file at `source` has come to `target`. -/
def openedAfterMove (fs : FileSystem) (source target : Location) : Option Location :=
  if fs.opened = some source then some target
  else if fs.opened = some target then none
  else fs.opened

/-- Moves the file at `source` to `target`, in place of a file that is there. -/
def move (fs : FileSystem) (source : Location) (content : Bytes) (target : Location) :
    FileSystem :=
  { (fs.erase source).put target (.file content) with opened := fs.openedAfterMove source target }

theorem get?_move {fs : FileSystem} {source target other : Location} {content : Bytes}
    (h : other ≠ []) :
    (fs.move source content target).get? other =
      if other = target then some (.file content)
      else if other = source then none
      else fs.get? other := by
  have : (fs.move source content target).get? other =
      ((fs.erase source).put target (.file content)).get? other := rfl
  rw [this, get?_put h, get?_erase h]

/-- Moves the file at `source` to a path, in place of a file that is there. -/
def moveTo (fs : FileSystem) (source : Location) (content : Bytes) (target : Path) :
    Except IoFailure FileSystem := do
  let location ← fs.locatePath target
  match target.ending, fs.get? location with
  | .dot, none => .error .notFound
  | .dot, some (.file _) => .error .notADirectory
  | .dot, some .directory => .error .resourceBusy
  | .slash, _ => .error .notADirectory
  | .name, some .directory => .error .isADirectory
  | .name, _ => .ok (fs.move source content location)

/-- Gives a file another name. -/
def rename (fs : FileSystem) (source target : Path) : Except IoFailure FileSystem := do
  let location ← fs.locateFile source
  match fs.get? location with
  | some (.file content) => fs.moveTo location content target
  | _ => .error .notFound

/-! ## Steps -/

/-- A change that happens as a whole or not at all. -/
def attempt (fs : FileSystem) :
    Except IoFailure FileSystem → Except IoFailure Unit × FileSystem
  | .ok changed => (.ok (), changed)
  | .error failure => (.error failure, fs)

/-- Carries out a step. -/
def perform (fs : FileSystem) : Step → Except IoFailure Unit × FileSystem
  | .createDirectories p => fs.ensureDirectories p.ancestors
  | .createEmpty file => fs.attempt (fs.createEmpty file)
  | .write file data => fs.attempt (fs.write file data)
  | .sync _ => (.ok (), fs)
  | .rename source target => fs.attempt (fs.rename source target)
  | .syncDirectory _ => (.ok (), fs)
  | .openFile file => fs.attempt (fs.openFile file)
  | .append data => (.ok (), fs.append data)

instance : Storage (StateM FileSystem) where
  read file := ExceptT.mk do return (← get).read file
  isPresent file := do return ((← get).find file).toBool
  perform step := ExceptT.mk (modifyGet (·.perform step))

end FileSystem

end CollectionSchema
