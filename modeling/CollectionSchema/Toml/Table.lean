import CollectionSchema.Toml.Value

/-!
# Tables

The tables of a document, while it is read. Whether a key or a header may add to a table
depends on how the table came to be: by a header of its own, as part of the path of another
header, or as part of a dotted key.
-/

namespace CollectionSchema.Toml

/-- How a table came to be. -/
inductive Origin where
  /-- by a header of its own -/
  | header
  /-- on the path of a header -/
  | path
  /-- on the path of a dotted key -/
  | dotted
deriving DecidableEq, Repr, Inhabited

/-- What stands under a key. -/
inductive Item where
  | value (value : Value)
  | table (origin : Origin) (entries : List (String × Item))
  /-- the tables of a repeated header, the newest first -/
  | tables (newestFirst : List (List (String × Item)))
deriving Repr, Inhabited

/-- The entries of a table, in the order in which they were added. -/
abbrev Entries := List (String × Item)

namespace Item

mutual

/-- The value of an item. -/
def toValue : Item → Value
  | .value v => v
  | .table _ entries => .table (entriesValue entries)
  | .tables newestFirst => .array (tableValues newestFirst).reverse

def entriesValue : List (String × Item) → List (String × Value)
  | [] => []
  | (name, item) :: rest => (name, toValue item) :: entriesValue rest

def tableValues : List (List (String × Item)) → List Value
  | [] => []
  | entries :: rest => .table (entriesValue entries) :: tableValues rest

end

end Item

namespace Entries

/-- Changes what stands under a key. A new key is put last. -/
def change? (name : String) (change : Option Item → Option Item) : Entries → Option Entries
  | [] => (change none).map fun item => [(name, item)]
  | (n, item) :: rest =>
    if n = name then (change (some item)).map fun item => (n, item) :: rest
    else (change? name change rest).map ((n, item) :: ·)

/-- Puts a value under a new key. -/
def addValue? (name : String) (value : Value) (entries : Entries) : Option Entries :=
  entries.change? name fun
    | none => some (.value value)
    | some _ => none

/-- Opens the table `name` by its header. It may have been on the path of other headers; then
it keeps its entries and moves to the end. -/
def openTable? (name : String) (entries : Entries) : Option Entries :=
  match entries.lookup name with
  | none => some (entries ++ [(name, .table .header [])])
  | some (.table .path inner) =>
    some (entries.filter (·.1 != name) ++ [(name, .table .header inner)])
  | some _ => none

/-- Opens one more of the tables `name` by their repeated header. -/
def openNext? (name : String) (entries : Entries) : Option Entries :=
  entries.change? name fun
    | none => some (.tables [[]])
    | some (.tables newestFirst) => some (.tables ([] :: newestFirst))
    | some _ => none

/-- Changes the table at a path, where tables that are not there are made with the origin
`made`. A repeated header stands for its newest table, and a dotted key must not lead through
a table with a header of its own. -/
def within? (made : Origin) (change : Origin → Entries → Option Entries) :
    List String → Origin → Entries → Option Entries
  | [], origin, entries => change origin entries
  | name :: path, _, entries => entries.change? name fun
    | none => (within? made change path made []).map (.table made)
    | some (.table origin inner) =>
      if made = .dotted ∧ origin = .header then none
      else (within? made change path origin inner).map (.table origin)
    | some (.tables (newest :: earlier)) =>
      (within? made change path .header newest).map fun newest => .tables (newest :: earlier)
    | some _ => none

/-- Puts a value under a dotted key: the path to a table, and the name there. A path must end
at a table that dotted keys have made. -/
def assign? (path : List String) (name : String) (value : Value) (entries : Entries) :
    Option Entries :=
  within? .dotted
    (fun origin inner =>
      if path.isEmpty = (origin = .dotted) then none else inner.addValue? name value)
    path .header entries

/-- The table of a list of assignments. -/
def ofAssignments? (assignments : List ((List String × String) × Value)) : Option Entries :=
  assignments.foldlM
    (fun entries assignment => entries.assign? assignment.1.1 assignment.1.2 assignment.2) []

end Entries

end CollectionSchema.Toml
