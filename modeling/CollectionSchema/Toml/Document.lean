import CollectionSchema.Toml.Grammar
import CollectionSchema.Toml.Table

/-!
# TOML documents

A document is a sequence of lines: assignments of values to keys, and the headers of tables
that the assignments after them belong to.
-/

namespace CollectionSchema.Toml

namespace Grammar

open Scan

/-! ## Values -/

/-- The path of a key, and its last part. -/
def splitKey (parts : List String) : List String × String :=
  (parts.dropLast, parts.getLastD "")

/-- A key, and the value that it is given. -/
def assignment (value : Scan Value) : Scan ((List String × String) × Value) := do
  let parts ← key
  char '='
  blanks
  return (splitKey parts, ← value)

/-- An array. The last item may be followed by a comma. -/
def array (item : Scan Value) : Scan Value := do
  char '['
  let items ← optional (separated (gap *> item <* gap) ',' <* optional (char ','))
  gap
  char ']'
  return .array (items.getD [])

/-- A table on one line. -/
def inlineTable (value : Scan Value) : Scan Value := do
  char '{'
  let assignments ← optional (separated (assignment value <* blanks) ',')
  blanks
  char '}'
  match Entries.ofAssignments? (assignments.getD []) with
  | some entries => return .table (Item.entriesValue entries)
  | none => failure

/-- A value, with at most `room` arrays and inline tables inside one another. -/
def value : Nat → Scan Value
  | 0 => scalar
  | room + 1 => array (value room) <|> inlineTable (value room) <|> scalar

end Grammar

/-- The document up to a line: all its tables, and the path of the last header. -/
structure Draft where
  root : Entries
  header : List String

namespace Draft

/-- The draft with a header: `change` opens the table in the one that it is part of. -/
def opened? (draft : Draft) (change : String → Entries → Option Entries) (parts : List String) :
    Option Draft := do
  let (path, name) := Grammar.splitKey parts
  let root ← draft.root.within? .path (fun _ inner => change name inner) path .header
  return ⟨root, parts⟩

/-- The draft with a value in the table of the last header. -/
def assigned? (draft : Draft) (key : List String × String) (value : Value) : Option Draft := do
  let root ←
    draft.root.within? .path (fun _ inner => inner.assign? key.1 key.2 value) draft.header .header
  return { draft with root }

end Draft

namespace Grammar

open Scan

/-! ## Lines -/

/-- A header: of a table, or of one more of several tables. -/
def header (draft : Draft) : Scan Draft := do
  char '['
  let repeated ← optional (char '[')
  let parts ← key
  char ']'
  match repeated with
  | some _ =>
    char ']'
    lineEnd
    (draft.opened? Entries.openNext? parts : Option Draft)
  | none =>
    lineEnd
    (draft.opened? Entries.openTable? parts : Option Draft)

/-- One line. -/
def line (draft : Draft) : Scan Draft := do
  match ← next? with
  | some '#' => lineEnd; return draft
  | some '\n' => newline; return draft
  | some '\r' => newline; return draft
  | some '[' => header draft
  | _ =>
    let (key, value) ← assignment (value (depthLimit - 1))
    lineEnd
    (draft.assigned? key value : Option Draft)

/-- The rest of the lines, at most `limit` of them. -/
def linesWithin : Nat → Draft → Scan Draft
  | 0, draft => return draft
  | limit + 1, draft => do
    blanks
    if ← atEnd then return draft else linesWithin limit (← line draft)

/-- A document. No line is empty, so there are no more lines than characters. -/
def document : Scan Entries := do
  discard (optional (char '\uFEFF'))
  let text ← get
  return (← linesWithin (text.length + 1) ⟨[], []⟩).root

end Grammar

/-- The entries of a document text. -/
def parse? (text : String) : Option (List (String × Value)) :=
  (Scan.whole? Grammar.document text.toList).map Item.entriesValue

/-- The JSON value of a document text. -/
def parseJson? (text : String) : Option Json := do (Value.table (← parse? text)).toJson?

end CollectionSchema.Toml
