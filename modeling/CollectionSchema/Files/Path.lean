import CollectionSchema.Text.Pieces

/-!
# Paths

A path is a text. It leads over names, with slashes between them, from the root if it starts
with a slash and from the working directory if it does not. Empty names and single dots lead
nowhere, but how a path ends decides what it may stand for. Paths are joined as texts;
nothing is left out of them.
-/

namespace CollectionSchema

/-- A path as it is written. -/
structure Path where
  text : String
deriving DecidableEq, Repr, Inhabited

namespace Path

/-- The pieces of the text between slashes. -/
def pieces (p : Path) : List (List Char) := Text.pieces '/' p.text.toList

def isAbsolute (p : Path) : Bool := p.text.toList.head? == some '/'

/-- Whether a piece of a path is a step of the way. -/
def isStep (piece : List Char) : Bool := piece != [] && piece != ['.']

/-- The names on the way. Two dots lead back to the parent directory. -/
def names (p : Path) : List String :=
  (p.pieces.filter isStep).map String.ofList

/-- The path over pieces. The empty piece by itself stands for the root. -/
def ofPieces : List (List Char) → Path
  | [[]] => ⟨"/"⟩
  | pieces => ⟨String.ofList (['/'].intercalate pieces)⟩

/-- What the end of a path is like. -/
inductive Ending where
  /-- a name, or nothing at all -/
  | name
  /-- a slash: the path stands for a directory -/
  | slash
  /-- a single dot: the path stands for a directory that must be there already -/
  | dot
deriving DecidableEq, Repr

/-- How the path ends. Slashes behind a dot change nothing. -/
def ending (p : Path) : Ending :=
  match p.pieces.reverse with
  | [] => .name
  | [[]] => .name
  | last :: earlier =>
    if last = ['.'] then .dot
    else if last ≠ [] then .name
    else if (earlier.dropWhile (·.isEmpty)).head? = some ['.'] then .dot
    else .slash

/-- The path that `right` stands for in the directory `left`: an absolute path stands for
itself, and between the two texts there is a slash. -/
def join (left right : Path) : Path :=
  if right.isAbsolute then right
  else if left.text.isEmpty ∨ left.text.toList.getLast? = some '/' then ⟨left.text ++ right.text⟩
  else ⟨left.text ++ "/" ++ right.text⟩

/-- The name that the path leads to, unless it leads nowhere or back. -/
def fileName? (p : Path) : Option String := p.names.getLast?.filter (· != "..")

/-- Pieces, last first, from the last one that is a step, or else the first piece alone. -/
def fromLastStep : List (List Char) → List (List Char)
  | [] => []
  | [first] => [first]
  | piece :: earlier => if isStep piece then piece :: earlier else fromLastStep earlier

theorem fromLastStep_suffix (pieces : List (List Char)) : fromLastStep pieces <:+ pieces := by
  fun_induction fromLastStep pieces with
  | case4 piece earlier _ hstep ih => exact ih.trans (List.suffix_cons _ _)
  | _ => exact List.suffix_rfl

/-- The directory of what the path leads to, as far as it is written; nothing for the working
directory. -/
def directory? (p : Path) : Option Path :=
  match fromLastStep p.pieces.reverse with
  | [] | [_] => none
  | _ :: outer => some (ofPieces (fromLastStep outer).reverse)

/-- The paths to what pieces, last first, lead to and to the directories around it, innermost
first. -/
def stages : List (List Char) → List Path
  | [] => []
  | [first] => [ofPieces [first]]
  | piece :: outer =>
    if isStep piece then ofPieces (piece :: outer).reverse :: stages outer else stages outer

/-- The path and the paths to the directories that it lies in, innermost first, as far as
they are written. -/
def ancestors (p : Path) : List Path := if p.text.isEmpty then [] else stages p.pieces.reverse

/-- The path to another name in the same directory. -/
def sibling (p : Path) (name : String) : Path :=
  match p.directory? with
  | some directory => directory.join ⟨name⟩
  | none => ⟨name⟩

/-- What stands behind the last dot of the file name, if something stands in front of it. -/
def extension? (p : Path) : Option String := do
  let reversed := (← p.fileName?).toList.reverse
  let stem := (reversed.dropWhile (· != '.')).drop 1
  if stem.isEmpty then none
  else some (String.ofList (reversed.takeWhile (· != '.')).reverse)

end Path

end CollectionSchema
